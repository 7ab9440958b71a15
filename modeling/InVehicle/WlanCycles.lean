import InVehicle.WlanInterface
import InVehicle.Histories

/-!
# Open and close in turn

`WiFiRawMonitorSocket.close`, which restores what the attributes of the socket object
have recorded, and the cycles of opening and closing one object. Nothing clears
the attributes between two cycles.
-/

set_option autoImplicit false

namespace InVehicle.WlanCycles
open InVehicle.Effect InVehicle.Histories InVehicle.WlanInterface

/-- How the calls of one `close` end, in their order. -/
structure CloseCalls where
  down : Ran
  setMode : Bool
  setFlags : Bool
  up : Ran
  close : Bool
  deriving DecidableEq, Repr

def restoreMode (originalMode : Option (BitVec 16)) (k : CloseCalls) : Kernel Unit :=
  match originalMode with
  | none => pure ()
  | some mode => do
    let _ ← setMode mode k.setMode

def restoreFlags (originalFlags : Option (BitVec 16)) (k : CloseCalls) : Kernel Unit :=
  match originalFlags with
  | none => pure ()
  | some flags => do
    let _ ← setIfFlags flags k.setFlags
    if flags &&& iffUp ≠ 0 then
      let _ ← setDevState .up k.up

def restore (originalFlags originalMode : Option (BitVec 16)) (k : CloseCalls) : Kernel Unit :=
  if originalFlags.isSome ∨ originalMode.isSome then do
    let _ ← setDevState .down k.down
    restoreMode originalMode k
    restoreFlags originalFlags k
  else pure ()

def closeSocket (k : CloseCalls) : Prog Monitor WlanError Bool := do
  let s ← Prog.get
  if s.rawSocket then
    onInterface (restore s.originalFlags s.originalMode k)
    onInterface (osCall k.close)
    Prog.modify fun s => { s with rawSocket := false }
    return true
  else return true

/-- One use of the socket object: the interface as others have left it, and how
the calls of `open` and of the `close` behind it end. -/
structure Cycle where
  interface : Interface
  opening : OpenCalls
  closing : CloseCalls
  deriving DecidableEq, Repr

def opened (s : Monitor) (c : Cycle) : Monitor :=
  (openSocket c.opening { s with interface := c.interface }).2

def cycle (s : Monitor) (c : Cycle) : Monitor := (closeSocket c.closing (opened s c)).2

/-- The commands of `close` succeed. How one would end that it does not issue is of no matter. -/
def CloseCalls.Done (k : CloseCalls) : Prop :=
  k.down = .done ∧ k.setMode ∧ k.setFlags ∧ k.up = .done

instance (k : CloseCalls) : Decidable k.Done := inferInstanceAs (Decidable (_ ∧ _))

/-! ## What `close` leaves -/

def restored (originalFlags originalMode : Option (BitVec 16)) (i : Interface) : Interface :=
  match originalFlags, originalMode with
  | some flags, mode => ⟨flags, mode.getD i.mode⟩
  | none, some mode => ⟨i.flags &&& ~~~iffUp, mode⟩
  | none, none => i

theorem up_of_and_ne_zero {flags : BitVec 16} (h : flags &&& iffUp ≠ 0) :
    flags ||| iffUp = flags := by
  have hbit : ∀ i, iffUp.getLsbD i = decide (i = 0) := by
    intro i
    simp [iffUp]
  have hflag : flags.getLsbD 0 = true := by
    by_contra hflag
    apply h
    apply BitVec.eq_of_getLsbD_eq
    intro i _
    rw [BitVec.getLsbD_and, hbit]
    by_cases hi : i = 0
    · rw [hi, Bool.eq_false_iff.mpr hflag]
      rfl
    · simp [hi]
  apply BitVec.eq_of_getLsbD_eq
  intro i _
  rw [BitVec.getLsbD_or, hbit]
  by_cases hi : i = 0
  · simp [hi, hflag]
  · simp [hi]

section Restore
variable {k : CloseCalls}

theorem restoreMode_done (h : k.setMode = true) (m : Option (BitVec 16)) (i : Interface) :
    restoreMode m k i = (.ok (), { i with mode := m.getD i.mode }) := by
  cases m with
  | none => rfl
  | some mode =>
    rw [restoreMode, setMode, bind_ok (writeWord_apply _), h]
    rfl

theorem restoreFlags_done (h : k.setFlags = true) (hup : k.up = .done) (f : Option (BitVec 16))
    (i : Interface) : restoreFlags f k i = (.ok (), { i with flags := f.getD i.flags }) := by
  cases f with
  | none => rfl
  | some flags =>
    rw [restoreFlags, setIfFlags, bind_ok (writeWord_apply _), h, if_pos rfl]
    by_cases hflags : flags &&& iffUp ≠ 0
    · rw [if_pos hflags, hup, bind_ok (setDevState_done .up _), Interface.linked,
        up_of_and_ne_zero hflags]
      rfl
    · rw [if_neg hflags]
      rfl

theorem restore_done (h : k.Done) (f m : Option (BitVec 16)) (i : Interface) :
    restore f m k i = (.ok (), restored f m i) := by
  obtain ⟨hdown, hmode, hflags, hup⟩ := h
  by_cases hrec : f.isSome ∨ m.isSome
  · rw [restore, if_pos hrec, hdown, bind_ok (setDevState_done .down i),
      bind_ok (restoreMode_done hmode m _), restoreFlags_done hflags hup]
    cases f with
    | some flags => rfl
    | none =>
      cases m with
      | some mode => rfl
      | none => simp at hrec
  · rw [restore, if_neg hrec]
    cases f <;> cases m <;> simp at hrec
    rfl

theorem close_interface (h : k.Done) (t : Monitor) : (closeSocket k t).2.interface =
    if t.rawSocket then restored t.originalFlags t.originalMode t.interface else t.interface := by
  rw [closeSocket, bind_ok (get_apply t)]
  by_cases hraw : t.rawSocket = true
  · rw [if_pos hraw, if_pos hraw]
    simp only [bind_apply, onInterface_apply, restore_done h]
    cases k.close <;> rfl
  · rw [if_neg hraw, if_neg hraw]
    rfl

end Restore

def Recording (s : Monitor) : Prop := s.originalMode.isSome → s.originalFlags.isSome

theorem onInterface_keeps {α : Type} (m : Kernel α) : Keeps Recording (onInterface m) := by
  intro s hs
  rw [onInterface_apply]
  match (m s.interface).1 with
  | .ok a => exact hs
  | .error e => exact hs

theorem closeSocket_keeps (k : CloseCalls) : Keeps Recording (closeSocket k) := by
  intro s hs
  rw [closeSocket, bind_ok (get_apply s)]
  have h : Keeps Recording (if s.rawSocket = true then do
      onInterface (restore s.originalFlags s.originalMode k)
      onInterface (osCall k.close)
      Prog.modify fun s => { s with rawSocket := false }
      return true
    else pure true) := by
    apply ensures_ite
    · intro _
      apply ensures_bind (onInterface_keeps _)
      intro _
      apply ensures_bind (onInterface_keeps _)
      intro _
      exact ensures_bind (ensures_modify fun _ ht => ht) fun _ => ensures_pure fun _ ht => ht
    · exact fun _ => ensures_pure fun _ ht => ht
  exact h s hs

/-! ## What `open` leaves to `close` -/

section Opened
variable {s : Monitor} {c : Cycle}

theorem opened_unread (h : ¬ (c.opening.socket ∧ c.opening.getFlags)) : opened s c =
    { s with rawSocket := c.opening.socket || s.rawSocket, interface := c.interface } := by
  rw [opened]
  by_cases hsocket : c.opening.socket = true
  · have hflags : c.opening.getFlags = false := Bool.eq_false_iff.mpr fun hf => h ⟨hsocket, hf⟩
    rw [open_unread hsocket hflags, hsocket, Bool.true_or]
  · have hsocket' := Bool.eq_false_iff.mpr hsocket
    rw [open_no_socket hsocket', hsocket', Bool.false_or]

theorem opened_link_kept (h : c.opening.socket ∧ c.opening.getFlags)
    (hdown : c.opening.down ≠ .done) :
    opened s c = ⟨true, some c.interface.flags, s.originalMode, c.interface⟩ :=
  (open_link_kept h.1 h.2 hdown).2

theorem opened_link_down (h : c.opening.socket ∧ c.opening.getFlags)
    (hdown : c.opening.down = .done) :
    ∃ m i, opened s c = ⟨true, some c.interface.flags, m, i⟩ ∧
      m.getD i.mode = c.interface.mode := by
  rw [opened]
  by_cases hmode : c.opening.getMode = true
  · rw [open_started h.1 h.2 hdown hmode, onInterface_apply]
    exact ⟨_, _, rfl, rfl⟩
  · rw [open_modeless h.1 h.2 hdown (Bool.eq_false_iff.mpr hmode)]
    exact ⟨_, _, rfl, rfl⟩

theorem opened_keeps (hs : Recording s) : Recording (opened s c) := by
  by_cases h : c.opening.socket ∧ c.opening.getFlags
  · by_cases hdown : c.opening.down = .done
    · obtain ⟨m, i, ht, -⟩ := opened_link_down (s := s) h hdown
      rw [ht]
      exact fun _ => rfl
    · rw [opened_link_kept h hdown]
      exact fun _ => rfl
  · rw [opened_unread h]
    exact hs

end Opened

/-! ## Cycles -/

/-- If the commands of `close` succeed, it leaves the interface as it was in front of `open`. -/
def Restored (s : Monitor) (c : Cycle) : Prop :=
  c.closing.Done → (cycle s c).interface = c.interface

def ModeCurrent (s : Monitor) (i : Interface) : Prop := ∀ m ∈ s.originalMode, m = i.mode

def FlagsCurrent (s : Monitor) (i : Interface) : Prop := ∀ f ∈ s.originalFlags, f = i.flags

/-- What `open` does not get to record is not recorded from an earlier cycle, or it
is what the interface has. -/
def Fresh (s : Monitor) (c : Cycle) : Prop :=
  c.closing.Done →
    if c.opening.socket ∧ c.opening.getFlags then
      c.opening.down = .done ∨ ModeCurrent s c.interface
    else (c.opening.socket = false ∧ s.rawSocket = false) ∨
      (FlagsCurrent s c.interface ∧ ModeCurrent s c.interface)

theorem restored_iff_current {s : Monitor} (hs : Recording s) (i : Interface) :
    restored s.originalFlags s.originalMode i = i ↔ FlagsCurrent s i ∧ ModeCurrent s i := by
  rw [FlagsCurrent, ModeCurrent]
  cases hf : s.originalFlags with
  | none =>
    cases hm : s.originalMode with
    | none => simp [restored]
    | some m =>
      rw [Recording, hf, hm] at hs
      exact absurd (hs rfl) Bool.false_ne_true
  | some f =>
    cases hm : s.originalMode with
    | none => simp [restored, Interface.ext_iff]
    | some m => simp [restored, Interface.ext_iff]

theorem restored_iff_fresh {s : Monitor} (hs : Recording s) (c : Cycle) :
    Restored s c ↔ Fresh s c := by
  rw [Restored, Fresh]
  apply forall_congr'
  intro hdone
  rw [cycle, close_interface hdone]
  by_cases h : c.opening.socket ∧ c.opening.getFlags
  · rw [if_pos h]
    by_cases hdown : c.opening.down = .done
    · obtain ⟨m, i, ht, hmode⟩ := opened_link_down (s := s) h hdown
      rw [ht, if_pos rfl]
      exact iff_of_true (congrArg (Interface.mk _) hmode) (.inl hdown)
    · rw [opened_link_kept h hdown, if_pos rfl, or_iff_right hdown, ModeCurrent]
      cases hm : s.originalMode with
      | none => simp [restored]
      | some m => simp [restored, Interface.ext_iff]
  · rw [if_neg h, opened_unread h]
    by_cases hraw : (c.opening.socket || s.rawSocket) = true
    · rw [if_pos hraw, restored_iff_current hs, iff_or_self]
      rintro ⟨hsocket, hfalse⟩
      rw [hsocket, hfalse] at hraw
      cases hraw
    · rw [if_neg hraw]
      rw [Bool.not_eq_true, Bool.or_eq_false_iff] at hraw
      exact iff_of_true rfl (.inl hraw)

def newMonitor (i : Interface) : Monitor := ⟨false, none, none, i⟩

/-- Every cycle of a history restores the interface exactly if in every cycle what `open`
does not get to record has not been recorded otherwise before. -/
theorem cycles_iff (i : Interface) (cycles : List Cycle) :
    Each cycle Restored (newMonitor i) cycles ↔ Each cycle Fresh (newMonitor i) cycles := by
  apply each_iff_each (I := Recording)
  · intro s c hs _
    exact ensures_state (closeSocket_keeps c.closing) (opened_keeps hs)
  · exact fun s c hs => restored_iff_fresh hs c
  · exact fun h => absurd h Bool.false_ne_true

def closed : CloseCalls := ⟨.done, true, true, .done, true⟩

def stuck : OpenCalls := { allDone with down := .failed }

/-- Managed mode at the first opening, ad-hoc mode at the second. -/
def twice : List Cycle := [⟨⟨0x1303, 2⟩, allDone, closed⟩, ⟨⟨0x1303, 1⟩, stuck, closed⟩]

/-- The second `close` sets the mode that the first `open` has recorded. -/
theorem stale_mode : ¬ Each cycle Restored (newMonitor ⟨0x1303, 2⟩) twice ∧
    (run cycle (newMonitor ⟨0x1303, 2⟩) twice).interface = ⟨0x1303, 2⟩ := by
  refine ⟨?_, by decide +kernel⟩
  rintro ⟨-, h, -⟩
  have hmode := h (by decide)
  revert hmode
  decide +kernel

end InVehicle.WlanCycles
