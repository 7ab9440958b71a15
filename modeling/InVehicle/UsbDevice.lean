import InVehicle.Effect
import InVehicle.Histories
import InVehicle.TextCodecs

/-!
# The simulated USB device

`USBDevice` mounts an image on the host and exports it as a USB gadget. The class keeps
`is_connected`; whether the image is mounted it looks up in the text of `/proc/mounts`.
-/

set_option autoImplicit false

namespace InVehicle.UsbDevice
open InVehicle.Effect InVehicle.Histories InVehicle.TextCodecs

/-- The mount point as the object has it, and the line that the kernel lists for the
image mounted there. -/
structure Place where
  mountPoint : Text
  line : Text
  deriving DecidableEq, Repr

/-- How often the image is mounted on the mount point, whether it is exported, and
what the object knows. -/
structure Device where
  mounted : ℕ
  exported : Bool
  isConnected : Bool
  deriving DecidableEq, Repr

inductive UsbError where
  | calledProcessError
  | osError
  deriving DecidableEq, Repr

abbrev Usb := Prog Device UsbError

/-- A command or a copy, with the exception it ends in if it fails. -/
def command (failure : Option UsbError) (effect : Device → Device) : Usb Unit :=
  match failure with
  | none => Prog.modify effect
  | some e => Prog.raise e

/-- The text in `/proc/mounts` before and behind the lines for the image. -/
structure OtherMounts where
  before : Text
  behind : Text
  deriving DecidableEq, Repr

def procMounts (p : Place) (others : OtherMounts) (d : Device) : Text :=
  others.before ++ ((List.replicate d.mounted p.line).flatten ++ others.behind)

def Seen (p : Place) (others : OtherMounts) (d : Device) : Prop :=
  p.mountPoint <:+: procMounts p others d

instance (p : Place) (others : OtherMounts) (d : Device) : Decidable (Seen p others d) :=
  inferInstanceAs (Decidable (_ <:+: _))

def isMountedLocally (p : Place) (others : OtherMounts) : Usb Bool := do
  let d ← Prog.get
  return decide (Seen p others d)

structure MountCalls where
  others : OtherMounts
  mount : Option UsbError
  deriving DecidableEq, Repr

def mountLocal (p : Place) (k : MountCalls) : Usb Unit := do
  if ← isMountedLocally p k.others then return ()
  else command k.mount fun d => { d with mounted := d.mounted + 1 }

structure UnmountCalls where
  others : OtherMounts
  umount : Option UsbError
  deriving DecidableEq, Repr

def unmountLocal (p : Place) (k : UnmountCalls) : Usb Unit := do
  if ← isMountedLocally p k.others then
    command k.umount fun d => { d with mounted := d.mounted - 1 }
  else return ()

def disableUsb (modprobe : Option UsbError) : Usb Unit := do
  command modprobe fun d => { d with exported := false }
  Prog.modify fun d => { d with isConnected := false }

structure AddFileCalls where
  modprobe : Option UsbError
  mount : MountCalls
  copy : Option UsbError
  unmount : UnmountCalls
  deriving DecidableEq, Repr

def disconnect (modprobe : Option UsbError) : Usb Unit := do
  let d ← Prog.get
  if d.isConnected then disableUsb modprobe else return ()

def addFile (p : Place) (k : AddFileCalls) : Usb Unit := do
  disconnect k.modprobe
  mountLocal p k.mount
  command k.copy id
  unmountLocal p k.unmount

structure EnableCalls where
  others : OtherMounts
  unmount : UnmountCalls
  modprobe : Option UsbError
  deriving DecidableEq, Repr

def release (p : Place) (k : EnableCalls) : Usb Unit := do
  if ← isMountedLocally p k.others then unmountLocal p k.unmount else return ()

def enableUsb (p : Place) (k : EnableCalls) : Usb Unit := do
  release p k
  command k.modprobe fun d => { d with exported := true }
  Prog.modify fun d => { d with isConnected := true }

inductive Call where
  | mountLocal (k : MountCalls)
  | unmountLocal (k : UnmountCalls)
  | addFile (k : AddFileCalls)
  | enableUsb (k : EnableCalls)
  | disableUsb (modprobe : Option UsbError)
  deriving DecidableEq, Repr

def program (p : Place) : Call → Usb Unit
  | .mountLocal k => mountLocal p k
  | .unmountLocal k => unmountLocal p k
  | .addFile k => addFile p k
  | .enableUsb k => enableUsb p k
  | .disableUsb modprobe => disableUsb modprobe

def perform (p : Place) (d : Device) (c : Call) : Device := (program p c d).2

/-- Not mounted and exported at once, and connected exactly if exported. -/
def Exclusive (d : Device) : Prop :=
  ¬ (0 < d.mounted ∧ d.exported = true) ∧ (d.isConnected = true ↔ d.exported = true)

/-! ## One call -/

def Unplugged (d : Device) : Prop := d.exported = false ∧ d.isConnected = false

theorem unplugged_exclusive {d : Device} (h : Unplugged d) : Exclusive d := by
  rw [Exclusive, h.1, h.2]
  exact ⟨fun hboth => Bool.false_ne_true hboth.2, Iff.rfl⟩

theorem exclusive_unplugged {d : Device} (h : Exclusive d) (hd : d.isConnected = false) :
    Unplugged d := by
  refine ⟨Bool.eq_false_iff.mpr fun hexported => ?_, hd⟩
  rw [h.2.mpr hexported] at hd
  cases hd

theorem command_keeps {I : Device → Prop} {failure : Option UsbError} {effect : Device → Device}
    (h : ∀ d, I d → I (effect d)) : Keeps I (command failure effect) := by
  cases failure with
  | none => exact ensures_modify h
  | some e => exact ensures_raise fun _ hd => hd

theorem isMountedLocally_apply (p : Place) (others : OtherMounts) (d : Device) :
    isMountedLocally p others d = (.ok (decide (Seen p others d)), d) := rfl

theorem mountLocal_state (p : Place) (k : MountCalls) (d : Device) : (mountLocal p k d).2 =
    if Seen p k.others d ∨ k.mount.isSome then d else { d with mounted := d.mounted + 1 } := by
  rw [mountLocal, bind_ok (isMountedLocally_apply p k.others d)]
  by_cases hseen : Seen p k.others d
  · rw [if_pos (decide_eq_true hseen), if_pos (.inl hseen)]
    rfl
  · rw [if_neg (by simpa using hseen)]
    cases k.mount with
    | none => simp [hseen, command, modify_apply]
    | some e => simp [command, raise_apply]

section Keeps
variable {p : Place} {I : Device → Prop}

theorem seen_ite_keeps {others : OtherMounts} {m n : Usb Unit} (hm : Keeps I m) (hn : Keeps I n) :
    Keeps I (isMountedLocally p others >>= fun b => if b = true then m else n) := by
  apply ensures_bind (Q := fun _ => I)
  · exact fun d hd => hd
  · exact fun b => ensures_ite (fun _ => hm) (fun _ => hn)

theorem mountLocal_keeps (k : MountCalls)
    (h : ∀ d, ¬ Seen p k.others d → I d → I { d with mounted := d.mounted + 1 }) :
    Keeps I (mountLocal p k) := by
  rw [keeps_iff]
  intro d hd
  rw [mountLocal_state]
  by_cases hseen : Seen p k.others d ∨ k.mount.isSome
  · rwa [if_pos hseen]
  · rw [if_neg hseen]
    exact h d (fun hs => hseen (.inl hs)) hd

theorem unmountLocal_keeps (k : UnmountCalls)
    (h : ∀ d, I d → I { d with mounted := d.mounted - 1 }) : Keeps I (unmountLocal p k) :=
  seen_ite_keeps (command_keeps h) (ensures_pure fun _ hd => hd)

end Keeps

theorem exclusive_unmount (d : Device) (h : Exclusive d) :
    Exclusive { d with mounted := d.mounted - 1 } := by
  refine ⟨?_, h.2⟩
  rintro ⟨hmounted, hexported⟩
  exact h.1 ⟨Nat.lt_of_lt_of_le hmounted (Nat.sub_le _ _), hexported⟩

theorem disableUsb_unplugs (modprobe : Option UsbError) :
    Ensures Exclusive (disableUsb modprobe) (fun _ => Unplugged) (fun _ => Exclusive) := by
  intro d hd
  cases modprobe with
  | none => exact ⟨rfl, rfl⟩
  | some e => exact hd

theorem disconnect_unplugs (modprobe : Option UsbError) :
    Ensures Exclusive (disconnect modprobe) (fun _ => Unplugged) (fun _ => Exclusive) := by
  intro d hd
  by_cases h : d.isConnected = true
  · have hdisable := disableUsb_unplugs modprobe d hd
    rw [disconnect, bind_ok (get_apply d), if_pos h]
    exact hdisable
  · rw [disconnect, bind_ok (get_apply d), if_neg h]
    exact exclusive_unplugged hd (Bool.eq_false_iff.mpr h)

theorem addFile_keeps (p : Place) (k : AddFileCalls) : Keeps Exclusive (addFile p k) := by
  have hrest : Keeps Unplugged (do
      mountLocal p k.mount
      command k.copy id
      unmountLocal p k.unmount) := by
    apply ensures_bind (mountLocal_keeps k.mount fun _ _ hd => hd)
    intro _
    apply ensures_bind (command_keeps fun _ hd => hd)
    intro _
    exact unmountLocal_keeps k.unmount fun _ hd => hd
  apply ensures_bind (disconnect_unplugs k.modprobe)
  intro _
  apply ensures_weaken hrest (fun _ hd => hd)
  · exact fun _ _ hd => unplugged_exclusive hd
  · exact fun _ _ hd => unplugged_exclusive hd

/-- The command of a `mount_local` is not run or fails while the device is connected,
and an `enable_usb` that loads the module leaves no mount. -/
def Released (p : Place) (d : Device) : Call → Prop
  | .mountLocal k => d.isConnected = true → Seen p k.others d ∨ k.mount.isSome
  | .enableUsb k => k.modprobe = none →
    if Seen p k.others d ∧ Seen p k.unmount.others d then k.unmount.umount = none → d.mounted ≤ 1
    else d.mounted = 0
  | _ => True

theorem exclusive_mount {d : Device} (h : Exclusive d) :
    Exclusive { d with mounted := d.mounted + 1 } ↔ ¬ d.isConnected = true := by
  rw [Exclusive, and_iff_left h.2, h.2, not_and]
  exact forall_prop_of_true (Nat.succ_pos d.mounted)

theorem mountLocal_iff {p : Place} {d : Device} (h : Exclusive d) (k : MountCalls) :
    Exclusive (perform p d (.mountLocal k)) ↔ Released p d (.mountLocal k) := by
  show Exclusive (mountLocal p k d).2 ↔ (d.isConnected = true → _)
  rw [mountLocal_state]
  by_cases hseen : Seen p k.others d ∨ k.mount.isSome
  · rw [if_pos hseen]
    exact iff_of_true h fun _ => hseen
  · rw [if_neg hseen, exclusive_mount h]
    exact ⟨fun hd hconnected => absurd hconnected hd, fun hreleased hd => hseen (hreleased hd)⟩

/-- The lines of `enable_usb` behind the unmounting. -/
def plug (modprobe : Option UsbError) : Usb Unit := do
  command modprobe fun d => { d with exported := true }
  Prog.modify fun d => { d with isConnected := true }

theorem plug_iff {d : Device} (h : Exclusive d) (modprobe : Option UsbError) :
    Exclusive (plug modprobe d).2 ↔ (modprobe = none → d.mounted = 0) := by
  cases modprobe with
  | none =>
    have hplug : plug none d = (.ok (), ⟨d.mounted, true, true⟩) := rfl
    rw [hplug, Exclusive]
    simp
  | some e => exact iff_of_true h fun hnone => by cases hnone

theorem release_apply (p : Place) (k : EnableCalls) (d : Device) : release p k d =
    if Seen p k.others d ∧ Seen p k.unmount.others d then
      match k.unmount.umount with
      | none => (.ok (), { d with mounted := d.mounted - 1 })
      | some e => (.error e, d)
    else (.ok (), d) := by
  rw [release, bind_ok (isMountedLocally_apply p k.others d)]
  by_cases hseen : Seen p k.others d
  · rw [if_pos (decide_eq_true hseen), unmountLocal,
      bind_ok (isMountedLocally_apply p k.unmount.others d)]
    by_cases hseen' : Seen p k.unmount.others d
    · rw [if_pos (decide_eq_true hseen'), if_pos ⟨hseen, hseen'⟩]
      cases k.unmount.umount <;> rfl
    · rw [if_neg (by simpa using hseen'), if_neg fun h => hseen' h.2]
      rfl
  · rw [if_neg (by simpa using hseen), if_neg fun h => hseen h.1]
    rfl

theorem enableUsb_iff {p : Place} {d : Device} (h : Exclusive d) (k : EnableCalls) :
    Exclusive (perform p d (.enableUsb k)) ↔ Released p d (.enableUsb k) := by
  show Exclusive ((release p k >>= fun _ => plug k.modprobe) d).2 ↔ (k.modprobe = none → _)
  have hrelease := release_apply p k d
  by_cases hseen : Seen p k.others d ∧ Seen p k.unmount.others d
  · rw [if_pos hseen] at hrelease
    rw [if_pos hseen]
    cases hk : k.unmount.umount with
    | none =>
      rw [hk] at hrelease
      rw [bind_ok hrelease, plug_iff (exclusive_unmount d h)]
      apply forall_congr'
      intro _
      rw [forall_prop_of_true rfl]
      exact Nat.sub_eq_zero_iff_le
    | some e =>
      rw [hk] at hrelease
      rw [bind_error hrelease]
      exact iff_of_true h fun _ hnone => by cases hnone
  · rw [if_neg hseen] at hrelease
    rw [if_neg hseen, bind_ok hrelease, plug_iff h]

theorem perform_iff (p : Place) (d : Device) (c : Call) (h : Exclusive d) :
    Exclusive (perform p d c) ↔ Released p d c := by
  cases c with
  | mountLocal k => exact mountLocal_iff h k
  | unmountLocal k =>
    exact iff_of_true (ensures_state (unmountLocal_keeps k exclusive_unmount) h) trivial
  | addFile k => exact iff_of_true (ensures_state (addFile_keeps p k) h) trivial
  | enableUsb k => exact enableUsb_iff h k
  | disableUsb modprobe =>
    have hkeeps := ensures_weaken (disableUsb_unplugs modprobe) (fun _ hd => hd)
      (fun _ _ hd => unplugged_exclusive hd) (fun _ _ hd => hd)
    exact iff_of_true (ensures_state hkeeps h) trivial

/-! ## Histories -/

def newDevice : Device := ⟨0, false, false⟩

/-- The image is never mounted and exported at once, and `is_connected` says whether it
is exported, exactly if no call mounts it while it is exported or exports it while it
is still mounted. -/
theorem exclusive_iff (p : Place) (calls : List Call) :
    Throughout (perform p) Exclusive newDevice calls ↔
      Each (perform p) (Released p) newDevice calls := by
  apply throughout_iff_each (I := Exclusive)
  · exact fun d c h hreleased => (perform_iff p d c h).mpr hreleased
  · exact fun d h => h
  · exact fun d c h hnot hafter => hnot ((perform_iff p d c h).mp hafter)
  · exact unplugged_exclusive ⟨rfl, rfl⟩

/-! ## A mount point spelled as the kernel lists it -/

def Listed (p : Place) : Prop := p.mountPoint <:+: p.line

theorem seen_of_mounted {p : Place} (hp : Listed p) {d : Device} (h : 0 < d.mounted)
    (others : OtherMounts) : Seen p others d := by
  obtain ⟨n, hn⟩ := Nat.exists_eq_succ_of_ne_zero h.ne'
  have hline : p.line <:+: (List.replicate d.mounted p.line).flatten := by
    rw [hn, List.replicate_succ, List.flatten_cons]
    exact (List.prefix_append _ _).isInfix
  have hours : p.line <:+: procMounts p others d := by
    apply hline.trans
    apply (List.prefix_append _ others.behind).isInfix.trans
    exact (List.suffix_append others.before _).isInfix
  exact hp.trans hours

theorem mounted_keeps {p : Place} (hp : Listed p) (c : Call) :
    Keeps (fun d => d.mounted ≤ 1) (program p c) := by
  have hmount : ∀ k, Keeps (fun d => d.mounted ≤ 1) (mountLocal p k) := by
    intro k
    apply mountLocal_keeps
    intro d hseen _
    have hzero : ¬ 0 < d.mounted := fun h => hseen (seen_of_mounted hp h k.others)
    show d.mounted + 1 ≤ 1
    omega
  have hunmount : ∀ k, Keeps (fun d => d.mounted ≤ 1) (unmountLocal p k) :=
    fun k => unmountLocal_keeps k fun d hd => (Nat.sub_le _ _).trans hd
  have hdisable : ∀ modprobe, Keeps (fun d => d.mounted ≤ 1) (disableUsb modprobe) := by
    intro modprobe
    exact ensures_bind (command_keeps fun _ hd => hd) fun _ => ensures_modify fun _ hd => hd
  cases c with
  | mountLocal k => exact hmount k
  | unmountLocal k => exact hunmount k
  | addFile k =>
    have hdisconnect : Keeps (fun d => d.mounted ≤ 1) (disconnect k.modprobe) := by
      apply ensures_bind (keeps_get _)
      exact fun _ => ensures_ite (fun _ => hdisable _) fun _ => ensures_pure fun _ hd => hd
    apply ensures_bind hdisconnect
    intro _
    apply ensures_bind (hmount k.mount)
    intro _
    exact ensures_bind (command_keeps fun _ hd => hd) fun _ => hunmount k.unmount
  | enableUsb k =>
    apply ensures_bind (seen_ite_keeps (hunmount k.unmount) (ensures_pure fun _ hd => hd))
    intro _
    exact ensures_bind (command_keeps fun _ hd => hd) fun _ => ensures_modify fun _ hd => hd
  | disableUsb modprobe => exact hdisable modprobe

/-- No `mount_local` runs its command with success while the device is connected. -/
def Spared (p : Place) (d : Device) : Call → Prop
  | .mountLocal k => d.isConnected = true → Seen p k.others d ∨ k.mount.isSome
  | _ => True

theorem spared_iff_released {p : Place} (hp : Listed p) {d : Device} (h : d.mounted ≤ 1)
    (c : Call) : Spared p d c ↔ Released p d c := by
  cases c with
  | enableUsb k =>
    refine iff_of_true trivial fun _ => ?_
    by_cases hseen : Seen p k.others d ∧ Seen p k.unmount.others d
    · rw [if_pos hseen]
      exact fun _ => h
    · rw [if_neg hseen]
      by_contra hmounted
      have hpos := Nat.pos_of_ne_zero hmounted
      exact hseen ⟨seen_of_mounted hp hpos _, seen_of_mounted hp hpos _⟩
  | mountLocal k => exact Iff.rfl
  | unmountLocal k | addFile k | disableUsb modprobe => exact Iff.rfl

/-- There only a `mount_local` of a connected device breaks the exclusion. -/
theorem listed_iff {p : Place} (hp : Listed p) (calls : List Call) :
    Throughout (perform p) Exclusive newDevice calls ↔
      Each (perform p) (Spared p) newDevice calls := by
  apply throughout_iff_each (I := fun d => Exclusive d ∧ d.mounted ≤ 1)
  · rintro d c ⟨hd, hmounted⟩ hspared
    refine ⟨(perform_iff p d c hd).mpr ((spared_iff_released hp hmounted c).mp hspared), ?_⟩
    exact ensures_state (mounted_keeps hp c) hmounted
  · exact fun d h => h.1
  · rintro d c ⟨hd, hmounted⟩ hnot hafter
    exact hnot ((spared_iff_released hp hmounted c).mpr ((perform_iff p d c hd).mp hafter))
  · exact ⟨unplugged_exclusive ⟨rfl, rfl⟩, Nat.zero_le 1⟩

def usbPlace : Place := ⟨"/mnt/usb".toList, "/dev/loop0 /mnt/usb vfat rw 0 0\n".toList⟩

def noOthers : OtherMounts := ⟨[], []⟩

/-- The image is exported, and then mounted although `is_connected` is set. -/
theorem mounted_while_exported :
    let calls : List Call := [.enableUsb ⟨noOthers, ⟨noOthers, none⟩, none⟩,
      .mountLocal ⟨noOthers, none⟩]
    ¬ Throughout (perform usbPlace) Exclusive newDevice calls ∧
    run (perform usbPlace) newDevice calls = ⟨1, true, true⟩ := by
  have hrun : run (perform usbPlace) newDevice [.enableUsb ⟨noOthers, ⟨noOthers, none⟩, none⟩,
      .mountLocal ⟨noOthers, none⟩] = ⟨1, true, true⟩ := by decide +kernel
  refine ⟨?_, hrun⟩
  intro h
  have hlast := h _ List.prefix_rfl
  rw [hrun] at hlast
  exact hlast.1 ⟨Nat.one_pos, rfl⟩

end InVehicle.UsbDevice
