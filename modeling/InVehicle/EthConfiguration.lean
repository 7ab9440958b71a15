import InVehicle.BitMasks
import InVehicle.CanConfiguration
import Mathlib.Data.Nat.Bitwise

/-!
# Configuring Ethernet interfaces

`ConfigurationManager._configure_eth_interface`, which writes the flags of an action to the
interface, and `EthIfFlags.get_flags_from_int`, which reads them back.
-/

set_option autoImplicit false

namespace InVehicle.EthConfiguration
open InVehicle.BitMasks
open InVehicle.CanConfiguration (InterfaceState)

inductive EthIfFlags where
  | iffUp
  | iffBroadcast
  | iffDebug
  | iffLoopback
  | iffPointopoint
  | iffNotrailers
  | iffRunning
  | iffNoarp
  | iffPromisc
  | iffAllmulti
  | iffMaster
  | iffSlave
  | iffMulticast
  | iffPortsel
  | iffAutomedia
  | iffDynamic
  | iffLowerUp
  | iffDormant
  | iffEcho
  deriving DecidableEq, Repr

def EthIfFlags.members : List EthIfFlags :=
  [.iffUp, .iffBroadcast, .iffDebug, .iffLoopback, .iffPointopoint, .iffNotrailers, .iffRunning,
    .iffNoarp, .iffPromisc, .iffAllmulti, .iffMaster, .iffSlave, .iffMulticast, .iffPortsel,
    .iffAutomedia, .iffDynamic, .iffLowerUp, .iffDormant, .iffEcho]

/-- The constants that `pyroute2` gives the flags: the bit of each. -/
structure IffConstants where
  position : EthIfFlags → ℕ
  position_lt : ∀ flag, position flag < 32
  distinct : position.Injective

def IffConstants.value (iff : IffConstants) : EthIfFlags → ℕ := BitMasks.value iff.position

structure EthInterfaceParams where
  interface : String
  mtu : Option ℤ
  flags : List EthIfFlags
  state : Option InterfaceState
  deriving DecidableEq, Repr

/-- `lower` of the member, which is a string. -/
def lower : InterfaceState → String
  | .up => "up"
  | .down => "down"
  | .unknown => "unknown"

structure Settings where
  flags : Option ℕ
  mtu : Option ℤ
  state : Option String
  deriving DecidableEq, Repr

variable (iff : IffConstants)

/-- `none` where the interface is missing: an error is logged and nothing is set. -/
def configureEthInterface (interfaces : List String) (ethConfig : EthInterfaceParams) :
    Option Settings :=
  if ethConfig.interface ∉ interfaces then none
  else
    some
      { flags :=
          if ethConfig.flags = [] then none
          else some (0xffffffff &&& (ethConfig.flags.map iff.value).sum)
        mtu := ethConfig.mtu.filter (· ≠ 0)
        state := ethConfig.state.map lower }

def getFlagsLoop (flags : ℕ) : List EthIfFlags → List EthIfFlags → List EthIfFlags
  | [], retFlags => retFlags
  | flag :: rest, retFlags =>
    if flags &&& iff.value flag ≠ 0 then getFlagsLoop flags rest (retFlags ++ [flag])
    else getFlagsLoop flags rest retFlags

def getFlagsFromInt (flags : ℕ) : List EthIfFlags :=
  getFlagsLoop iff flags EthIfFlags.members []

/-! ## Reading -/

theorem mem_members (flag : EthIfFlags) : flag ∈ EthIfFlags.members := by
  cases flag <;> decide

theorem members_nodup : EthIfFlags.members.Nodup := by decide

theorem and_value_ne_zero_iff (word : ℕ) (flag : EthIfFlags) :
    word &&& iff.value flag ≠ 0 ↔ word.testBit (iff.position flag) = true := by
  rw [IffConstants.value, BitMasks.value, Nat.and_two_pow]
  cases word.testBit (iff.position flag) <;> simp

theorem getFlagsLoop_eq (word : ℕ) (rest retFlags : List EthIfFlags) :
    getFlagsLoop iff word rest retFlags =
      retFlags ++ rest.filter fun flag => word.testBit (iff.position flag) := by
  induction rest generalizing retFlags with
  | nil => simp [getFlagsLoop]
  | cons flag rest ih =>
    by_cases h : word.testBit (iff.position flag) = true
    · rw [getFlagsLoop, if_pos ((and_value_ne_zero_iff iff word flag).mpr h), ih,
        List.filter_cons, if_pos h]
      simp
    · rw [getFlagsLoop, if_neg (mt (and_value_ne_zero_iff iff word flag).mp h), ih,
        List.filter_cons, if_neg h]

theorem getFlagsFromInt_nodup (word : ℕ) : (getFlagsFromInt iff word).Nodup := by
  rw [getFlagsFromInt, getFlagsLoop_eq, List.nil_append]
  exact members_nodup.filter _

theorem mem_getFlagsFromInt (word : ℕ) (flag : EthIfFlags) :
    flag ∈ getFlagsFromInt iff word ↔ word.testBit (iff.position flag) = true := by
  rw [getFlagsFromInt, getFlagsLoop_eq, List.nil_append, List.mem_filter]
  exact and_iff_right (mem_members flag)

/-! ## Writing -/

def combined (flags : List EthIfFlags) : ℕ := mask iff.position flags

/-- The word for the flags is what they combine to, and is read back as these flags. -/
def WritesListed (settings : Settings) (flags : List EthIfFlags) : Prop :=
  settings.flags = some (combined iff flags) ∧
    ∀ word, settings.flags = some word →
      (getFlagsFromInt iff word).Nodup ∧ ∀ flag, flag ∈ getFlagsFromInt iff word ↔ flag ∈ flags

theorem getFlagsFromInt_combined (flags : List EthIfFlags) (flag : EthIfFlags) :
    flag ∈ getFlagsFromInt iff (combined iff flags) ↔ flag ∈ flags := by
  rw [mem_getFlagsFromInt, combined, testBit_mask_position iff.distinct]

theorem writesListed_iff (settings : Settings) (flags : List EthIfFlags) :
    WritesListed iff settings flags ↔ settings.flags = some (combined iff flags) := by
  constructor
  · exact And.left
  · intro h
    refine ⟨h, fun word hword => ?_⟩
    obtain rfl : combined iff flags = word := Option.some_inj.mp (h.symm.trans hword)
    exact ⟨getFlagsFromInt_nodup iff _, getFlagsFromInt_combined iff flags⟩

theorem masked_eq_combined_iff (flags : List EthIfFlags) :
    0xffffffff &&& (flags.map iff.value).sum = combined iff flags ↔
      2 ^ 32 ∣ ((repeats flags).map iff.value).sum := by
  rw [Nat.and_comm, show 0xffffffff = 2 ^ 32 - 1 from rfl, Nat.and_two_pow_sub_one_eq_mod]
  exact sum_mod_eq_mask_iff iff.distinct iff.position_lt flags

theorem flags_iff (interfaces : List String) (ethConfig : EthInterfaceParams)
    (hexists : ethConfig.interface ∈ interfaces) (hflags : ethConfig.flags ≠ []) :
    (∃ settings, configureEthInterface iff interfaces ethConfig = some settings ∧
        WritesListed iff settings ethConfig.flags) ↔
      2 ^ 32 ∣ ((repeats ethConfig.flags).map iff.value).sum := by
  rw [configureEthInterface, if_neg (not_not_intro hexists)]
  simp only [Option.some.injEq, exists_eq_left', writesListed_iff, if_neg hflags]
  exact masked_eq_combined_iff iff ethConfig.flags

/-! ## On Linux -/

/-- The flags have the first bits, in the order of the class. -/
def linux : IffConstants where
  position := EthIfFlags.ctorIdx
  position_lt flag := by cases flag <;> decide
  distinct := Function.LeftInverse.injective (g := EthIfFlags.ofNat) EthIfFlags.ofNat_ctorIdx

def brought (flags : List EthIfFlags) : EthInterfaceParams :=
  { interface := "eth0", mtu := none, flags := flags, state := some .up }

theorem flags_iff_brought_up :
    ∃ settings,
      configureEthInterface linux ["eth0"]
          (brought [.iffBroadcast, .iffMulticast, .iffUp, .iffLowerUp, .iffRunning]) =
        some settings ∧
      WritesListed linux settings
        [.iffBroadcast, .iffMulticast, .iffUp, .iffLowerUp, .iffRunning] :=
  (flags_iff linux ["eth0"]
    (brought [.iffBroadcast, .iffMulticast, .iffUp, .iffLowerUp, .iffRunning])
    (by decide) (by decide)).mpr (by decide)

/-- `IFF_UP` listed twice is `IFF_BROADCAST`. -/
theorem up_twice_is_broadcast :
    configureEthInterface linux ["eth0"] (brought [.iffUp, .iffUp]) =
        some { flags := some 2, mtu := none, state := some "up" } ∧
      getFlagsFromInt linux 2 = [.iffBroadcast] ∧
      ¬ WritesListed linux { flags := some 2, mtu := none, state := some "up" }
        [.iffUp, .iffUp] := by
  refine ⟨by decide, by decide, fun h => ?_⟩
  exact absurd h.1 (by decide)

theorem linux_value_pos (flag : EthIfFlags) : 0 < linux.value flag := Nat.two_pow_pos _

theorem linux_value_le (flag : EthIfFlags) : linux.value flag ≤ 2 ^ 18 := by
  cases flag <;> decide

theorem linux_iff_nodup (flags : List EthIfFlags) (hlength : flags.length ≤ 2 ^ 14) :
    2 ^ 32 ∣ ((repeats flags).map linux.value).sum ↔ flags.Nodup := by
  rw [← repeats_eq_nil_iff]
  constructor
  · intro hdvd
    by_contra hne
    have hflags : flags ≠ [] := by
      rintro rfl
      exact hne rfl
    have hshort := repeats_length flags hflags
    have hle : ((repeats flags).map linux.value).sum ≤ (repeats flags).length * 2 ^ 18 := by
      rw [← List.length_map linux.value]
      exact List.sum_le_card_nsmul _ _ fun n hn => by
        obtain ⟨flag, -, rfl⟩ := List.mem_map.mp hn
        exact linux_value_le flag
    have hpos : 0 < ((repeats flags).map linux.value).sum :=
      List.sum_pos _ (fun n hn => by
        obtain ⟨flag, -, rfl⟩ := List.mem_map.mp hn
        exact linux_value_pos flag) (mt List.map_eq_nil_iff.mp hne)
    have hge := Nat.le_of_dvd hpos hdvd
    omega
  · intro h
    rw [h]
    exact Nat.dvd_zero _

end InVehicle.EthConfiguration
