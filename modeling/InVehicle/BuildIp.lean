import InVehicle.Basic
import InVehicle.Netmasks

/-!
# Addresses built within a network

`build_ip` keeps the network part of an address and puts a host part behind it, one
that is given or one that is drawn.
-/

set_option autoImplicit false

namespace InVehicle.BuildIp
open Netmasks

structure Address (w : ℕ) where
  value : ℕ
  value_lt : value < 2 ^ w
  deriving DecidableEq, Repr

/-- The constructor of an address at a number; its error is a kind of `ValueError`. -/
def Address.ofInt (w : ℕ) (n : ℤ) : Except PyError (Address w) :=
  if h : 0 ≤ n ∧ n < 2 ^ w then
    .ok ⟨n.toNat, by rw [Int.toNat_lt h.1]; exact_mod_cast h.2⟩
  else .error .valueError

def ipv4LenBits : ℕ := 32

def ipv6LenBits : ℕ := 128

inductive IpAddress where
  | ipv4 (address : Address ipv4LenBits)
  | ipv6 (address : Address ipv6LenBits)
  deriving DecidableEq, Repr

inductive Base where
  | address (a : IpAddress)
  | other

def ipNetwork {w : ℕ} (base : Address w) (networkPrefix : ℤ) : Except PyError (Address w) :=
  if 0 ≤ networkPrefix ∧ networkPrefix ≤ w then
    Address.ofInt w (base.value &&& netmask w networkPrefix.toNat : ℕ)
  else .error .valueError

/-- `choice` picks one of the numbers from `a` to `b`, both included. -/
def randint (choice : ℕ) (a b : ℤ) : Except PyError ℤ :=
  if b < a then .error .valueError else .ok (a + choice % (b - a + 1))

/-- The host part as given, or one that is neither the first nor the last. -/
def chooseHost (choice : ℕ) (maxHostValue : ℤ) : Option ℤ → Except PyError ℤ
  | none => randint choice 1 (maxHostValue - 1)
  | some part => pure part

def hostAt {w : ℕ} (network : Address w) (maxHostValue hostPart : ℤ) :
    Except PyError (Option (Address w)) :=
  if ¬(0 ≤ hostPart ∧ hostPart ≤ maxHostValue) then pure none
  else some <$> Address.ofInt w (network.value + hostPart)

def buildIn {w : ℕ} (choice : ℕ) (base : Address w) (networkPrefix : ℤ)
    (hostPart : Option ℤ) : Except PyError (Option (Address w)) :=
  if ¬(0 ≤ networkPrefix ∧ networkPrefix < w) then pure none
  else do
    let network ← ipNetwork base networkPrefix
    let numHostBits := (w - networkPrefix).toNat
    let maxHostValue : ℤ := 2 ^ numHostBits - 1
    let part ← chooseHost choice maxHostValue hostPart
    hostAt network maxHostValue part

def buildIp (choice : ℕ) (base : Base) (networkPrefix : ℤ) (hostPart : Option ℤ) :
    Except PyError (Option IpAddress) :=
  match base with
  | .address (.ipv4 a) => Option.map .ipv4 <$> buildIn choice a networkPrefix hostPart
  | .address (.ipv6 a) => Option.map .ipv6 <$> buildIn choice a networkPrefix hostPart
  | .other => .ok none

/-! ## The parts of the body -/

variable {w : ℕ}

theorem ofInt_natCast {n : ℕ} (h : n < 2 ^ w) : Address.ofInt w n = .ok ⟨n, h⟩ := by
  have hn : (0 : ℤ) ≤ n ∧ (n : ℤ) < 2 ^ w := ⟨Int.natCast_nonneg n, by exact_mod_cast h⟩
  rw [Address.ofInt, dif_pos hn]
  rfl

theorem exists_randint_iff (a b x : ℤ) :
    (∃ choice, randint choice a b = .ok x) ↔ a ≤ x ∧ x ≤ b := by
  constructor
  · rintro ⟨choice, h⟩
    rw [randint] at h
    split at h
    · cases h
    · cases h
      have hpos : 0 < b - a + 1 := by omega
      have := Int.emod_nonneg choice (Int.ne_of_gt hpos)
      have := Int.emod_lt_of_pos choice hpos
      omega
  · intro h
    refine ⟨(x - a).toNat, ?_⟩
    rw [randint, if_neg (by omega), Int.toNat_of_nonneg (by omega), Int.emod_eq_of_lt] <;> grind

theorem randint_ok_or_error (choice : ℕ) (a b : ℤ) :
    (b < a ∧ randint choice a b = .error .valueError) ∨
      ∃ x, randint choice a b = .ok x ∧ a ≤ x ∧ x ≤ b := by
  by_cases h : b < a
  · exact .inl ⟨h, if_pos h⟩
  · refine .inr ⟨_, if_neg h, ?_⟩
    exact (exists_randint_iff a b _).mp ⟨choice, if_neg h⟩

theorem ipNetwork_eq (base : Address w) {p : ℕ} (hp : p ≤ w) :
    ∃ network : Address w, ipNetwork base p = .ok network ∧
      network.value = base.value / 2 ^ (w - p) * 2 ^ (w - p) := by
  have hmask := and_netmask (p := p) base.value_lt
  refine ⟨⟨_, Nat.and_le_left.trans_lt base.value_lt⟩, ?_, hmask⟩
  rw [ipNetwork, if_pos ⟨by omega, by exact_mod_cast hp⟩]
  exact ofInt_natCast _

/-! ## The body -/

def hostBits (w : ℕ) (networkPrefix : ℤ) : ℕ := (w - networkPrefix).toNat

theorem hostBits_natCast (p : ℕ) : hostBits w p = w - p := Int.toNat_sub w p

section Body
variable (choice : ℕ) (base : Address w)

theorem buildIn_outside {networkPrefix : ℤ} (hostPart : Option ℤ)
    (h : networkPrefix < 0 ∨ w ≤ networkPrefix) :
    buildIn choice base networkPrefix hostPart = .ok none := by
  rw [buildIn, if_pos]
  · rfl
  · omega

variable {p : ℕ} (hp : p < w)
include hp

theorem buildIn_inside :
    ∃ network : Address w, network.value = base.value / 2 ^ (w - p) * 2 ^ (w - p) ∧
      ∀ hostPart, buildIn choice base p hostPart =
        chooseHost choice (2 ^ (w - p) - 1) hostPart >>= hostAt network (2 ^ (w - p) - 1) := by
  obtain ⟨network, hnetwork, hvalue⟩ := ipNetwork_eq base hp.le
  have hbits : ((w : ℤ) - p).toNat = w - p := Int.toNat_sub w p
  refine ⟨network, hvalue, fun hostPart => ?_⟩
  rw [buildIn, if_neg (by omega), hnetwork]
  simp only [hbits]
  rfl

theorem buildIn_none :
    buildIn choice base p none =
      randint choice 1 (2 ^ (w - p) - 1 - 1) >>= fun part => buildIn choice base p (some part) := by
  obtain ⟨network, -, hbuild⟩ := buildIn_inside choice base hp
  simp only [hbuild, chooseHost, pure_bind]

theorem buildIn_given {part : ℕ} (h : part < 2 ^ (w - p)) :
    ∃ a : Address w, buildIn choice base p (some part) = .ok (some a) ∧
      a.value = base.value / 2 ^ (w - p) * 2 ^ (w - p) + part := by
  obtain ⟨network, hvalue, hbuild⟩ := buildIn_inside choice base hp
  have hlt : network.value + part < 2 ^ w := by
    rw [hvalue]
    exact lt_of_mem_network (Nat.sub_le w p) base.value_lt (start_add_mem_network part h)
  have hpart : (part : ℤ) < 2 ^ (w - p) := by exact_mod_cast h
  refine ⟨⟨network.value + part, hlt⟩, ?_, congrArg (· + part) hvalue⟩
  rw [hbuild, chooseHost, pure_bind, hostAt, if_neg (by omega), ← Int.natCast_add,
    ofInt_natCast hlt]
  rfl

theorem buildIn_given_outside {part : ℤ} (h : part < 0 ∨ 2 ^ (w - p) ≤ part) :
    buildIn choice base p (some part) = .ok none := by
  obtain ⟨network, -, hbuild⟩ := buildIn_inside choice base hp
  rw [hbuild, chooseHost, pure_bind, hostAt, if_pos (by omega)]
  rfl

end Body

/-! ## What a call promises -/

/-- The calls that are answered with `None`. -/
def Refused (w : ℕ) (networkPrefix : ℤ) (hostPart : Option ℤ) : Prop :=
  networkPrefix < 0 ∨ w ≤ networkPrefix ∨
    ∃ part, hostPart = some part ∧ (part < 0 ∨ 2 ^ hostBits w networkPrefix ≤ part)

/-- A word in the network of `base` whose last bits are the host part. -/
structure Built (choice w : ℕ) (networkPrefix : ℤ) (hostPart : Option ℤ) (base a : ℕ) : Prop where
  same_network : a ∈ network (hostBits w networkPrefix) base
  host : chooseHost choice (2 ^ hostBits w networkPrefix - 1) hostPart =
    .ok (a % 2 ^ hostBits w networkPrefix : ℕ)
  not_reserved : hostPart = none → 2 ≤ hostBits w networkPrefix →
    a % 2 ^ hostBits w networkPrefix ≠ 0 ∧
      a % 2 ^ hostBits w networkPrefix ≠ 2 ^ hostBits w networkPrefix - 1

variable (choice : ℕ) (base : Address w)

theorem buildIn_built_given {p part : ℕ} (hp : p < w) (h : part < 2 ^ (w - p)) :
    ∃ a : Address w, buildIn choice base p (some part) = .ok (some a) ∧
      Built choice w p (some part) base.value a.value := by
  obtain ⟨a, hbuild, hvalue⟩ := buildIn_given choice base hp h
  have hmod : a.value % 2 ^ (w - p) = part := hvalue ▸ start_add_mod _ part h
  refine ⟨a, hbuild, ?_, ?_, by simp⟩
  · rw [hostBits_natCast, hvalue]
    exact start_add_mem_network part h
  · rw [hostBits_natCast, hmod]
    rfl

theorem buildIn_built_drawn {p : ℕ} (hp : p + 1 < w) :
    ∃ a : Address w, buildIn choice base p none = .ok (some a) ∧
      Built choice w p none base.value a.value := by
  have hbits : 2 ≤ w - p := by omega
  have hfour : 2 ^ 2 ≤ 2 ^ (w - p) := Nat.pow_le_pow_right (by decide) hbits
  have hcast : ((2 ^ (w - p) : ℕ) : ℤ) = 2 ^ (w - p) := Int.natCast_pow 2 (w - p)
  obtain ⟨hempty, -⟩ | ⟨x, hx, hlow, hhigh⟩ :=
    randint_ok_or_error choice 1 (2 ^ (w - p) - 1 - 1)
  · omega
  obtain ⟨part, rfl⟩ := Int.eq_ofNat_of_zero_le (show 0 ≤ x by omega)
  have hp' : p < w := by omega
  have hlt : part < 2 ^ (w - p) := by omega
  obtain ⟨a, hbuild, hbuilt⟩ := buildIn_built_given choice base hp' hlt
  have hmod : a.value % 2 ^ (w - p) = part := by
    have := hbuilt.host
    rw [hostBits_natCast] at this
    exact (Int.ofNat.inj (Except.ok.inj this)).symm
  refine ⟨a, ?_, hbuilt.same_network, ?_, ?_⟩
  · rw [buildIn_none choice base hp', hx]
    exact hbuild
  · rw [hostBits_natCast, hmod]
    exact hx
  · rw [hostBits_natCast, hmod]
    omega

theorem buildIn_drawn_one_bit {p : ℕ} (hp : p + 1 = w) :
    buildIn choice base p none = .error .valueError := by
  rw [buildIn_none choice base (by omega), show w - p = 1 by omega]
  rfl

def Answered (choice : ℕ) (base : Address w) (networkPrefix : ℤ) (hostPart : Option ℤ) : Prop :=
  ∃ result, buildIn choice base networkPrefix hostPart = .ok result ∧
    (result = none ↔ Refused w networkPrefix hostPart) ∧
    ∀ a, result = some a → Built choice w networkPrefix hostPart base.value a.value

theorem answered_outside {networkPrefix : ℤ} (hostPart : Option ℤ)
    (h : networkPrefix < 0 ∨ w ≤ networkPrefix) :
    Answered choice base networkPrefix hostPart := by
  have hrefused : Refused w networkPrefix hostPart := by
    rw [Refused]
    tauto
  exact ⟨none, buildIn_outside choice base hostPart h, iff_of_true rfl hrefused, by simp⟩

theorem answered_built {p : ℕ} (hp : p < w) {hostPart : Option ℤ} {a : Address w}
    (hpart : ∀ part, hostPart = some part → 0 ≤ part ∧ part < 2 ^ (w - p))
    (hbuild : buildIn choice base p hostPart = .ok (some a))
    (hbuilt : Built choice w p hostPart base.value a.value) :
    Answered choice base p hostPart := by
  have hallowed : ¬Refused w p hostPart := by
    rintro (h | h | ⟨part, hsome, h⟩)
    · omega
    · omega
    · have := hpart part hsome
      rw [hostBits_natCast] at h
      omega
  refine ⟨some a, hbuild, iff_of_false (by simp) hallowed, ?_⟩
  rintro _ ⟨⟩
  exact hbuilt

theorem answered_given {p : ℕ} (hp : p < w) (part : ℤ) :
    Answered choice base p (some part) := by
  have hcast : ((2 ^ (w - p) : ℕ) : ℤ) = 2 ^ (w - p) := Int.natCast_pow 2 (w - p)
  by_cases hpart : part < 0 ∨ 2 ^ (w - p) ≤ part
  · refine ⟨none, buildIn_given_outside choice base hp hpart, iff_of_true rfl ?_, by simp⟩
    exact .inr (.inr ⟨part, rfl, by rwa [hostBits_natCast]⟩)
  · obtain ⟨n, rfl⟩ := Int.eq_ofNat_of_zero_le (show 0 ≤ part by omega)
    have hlt : n < 2 ^ (w - p) := by omega
    obtain ⟨a, hbuild, hbuilt⟩ := buildIn_built_given choice base hp hlt
    refine answered_built choice base hp ?_ hbuild hbuilt
    rintro _ ⟨⟩
    omega

theorem answered_drawn_iff {p : ℕ} (hp : p < w) : Answered choice base p none ↔ p + 1 ≠ w := by
  constructor
  · rintro ⟨result, hbuild, -⟩ hbit
    rw [buildIn_drawn_one_bit choice base hbit] at hbuild
    cases hbuild
  · intro hbit
    have hbits : p + 1 < w := by omega
    obtain ⟨a, hbuild, hbuilt⟩ := buildIn_built_drawn choice base hbits
    exact answered_built choice base hp (by simp) hbuild hbuilt

theorem answered_iff (hw : 0 < w) (networkPrefix : ℤ) (hostPart : Option ℤ) :
    Answered choice base networkPrefix hostPart ↔
      ¬(hostPart = none ∧ networkPrefix = w - 1) := by
  by_cases hin : networkPrefix < 0 ∨ w ≤ networkPrefix
  · exact iff_of_true (answered_outside choice base hostPart hin) (by omega)
  obtain ⟨p, rfl⟩ := Int.eq_ofNat_of_zero_le (show 0 ≤ networkPrefix by omega)
  have hp : p < w := by omega
  cases hostPart with
  | some part => exact iff_of_true (answered_given choice base hp part) (by simp)
  | none =>
    rw [answered_drawn_iff choice base hp]
    simp only [true_and]
    omega

theorem exists_buildIn_iff {p : ℕ} (hp : p < w) (a : Address w) :
    (∃ part : ℤ, buildIn choice base p (some part) = .ok (some a)) ↔
      a.value ∈ network (w - p) base.value := by
  constructor
  · rintro ⟨part, hpart⟩
    obtain ⟨result, hresult, -, hbuilt⟩ := answered_given choice base hp part
    rw [hpart] at hresult
    have hmem := (hbuilt a (Except.ok.inj hresult).symm).same_network
    rwa [hostBits_natCast] at hmem
  · intro hmem
    have hquot : a.value / 2 ^ (w - p) = base.value / 2 ^ (w - p) := hmem
    have hlt : a.value % 2 ^ (w - p) < 2 ^ (w - p) := Nat.mod_lt _ (Nat.two_pow_pos _)
    obtain ⟨b, hbuild, hvalue⟩ := buildIn_given choice base hp hlt
    have heq : b = a := by
      rw [← hquot, Nat.div_add_mod'] at hvalue
      cases a
      cases b
      simpa using hvalue
    exact ⟨_, heq ▸ hbuild⟩

/-! ## Both families -/

inductive Family where
  | v4
  | v6
  deriving DecidableEq, Repr

namespace IpAddress

def family : IpAddress → Family
  | .ipv4 _ => .v4
  | .ipv6 _ => .v6

def width : IpAddress → ℕ
  | .ipv4 _ => ipv4LenBits
  | .ipv6 _ => ipv6LenBits

def value : IpAddress → ℕ
  | .ipv4 a => a.value
  | .ipv6 a => a.value

end IpAddress

def StaysInside (choice : ℕ) (base : IpAddress) (networkPrefix : ℤ)
    (hostPart : Option ℤ) : Prop :=
  ∃ result, buildIp choice (.address base) networkPrefix hostPart = .ok result ∧
    (result = none ↔ Refused base.width networkPrefix hostPart) ∧
    ∀ a, result = some a → a.family = base.family ∧
      Built choice base.width networkPrefix hostPart base.value a.value

theorem staysInside_ipv4 (a : Address ipv4LenBits) (networkPrefix : ℤ) (hostPart : Option ℤ) :
    StaysInside choice (.ipv4 a) networkPrefix hostPart ↔
      Answered choice a networkPrefix hostPart := by
  rw [StaysInside, Answered, buildIp]
  cases buildIn choice a networkPrefix hostPart with
  | error e => simp
  | ok result => cases result <;> simp [IpAddress.family, IpAddress.width, IpAddress.value]

theorem staysInside_ipv6 (a : Address ipv6LenBits) (networkPrefix : ℤ) (hostPart : Option ℤ) :
    StaysInside choice (.ipv6 a) networkPrefix hostPart ↔
      Answered choice a networkPrefix hostPart := by
  rw [StaysInside, Answered, buildIp]
  cases buildIn choice a networkPrefix hostPart with
  | error e => simp
  | ok result => cases result <;> simp [IpAddress.family, IpAddress.width, IpAddress.value]

theorem buildIp_staysInside_iff (choice : ℕ) (base : IpAddress) (networkPrefix : ℤ)
    (hostPart : Option ℤ) :
    StaysInside choice base networkPrefix hostPart ↔
      ¬(hostPart = none ∧ networkPrefix = base.width - 1) := by
  cases base with
  | ipv4 a =>
    rw [staysInside_ipv4, answered_iff choice a (by decide)]
    rfl
  | ipv6 a =>
    rw [staysInside_ipv6, answered_iff choice a (by decide)]
    rfl

/-- 192.168.1.1 in a network of two addresses. -/
theorem buildIp_not_staysInside :
    ¬StaysInside 0 (.ipv4 ⟨0xc0a80101, by decide⟩) 31 none := by
  rintro ⟨result, hresult, -⟩
  revert hresult
  have herror : buildIp 0 (.address (.ipv4 ⟨0xc0a80101, by decide⟩)) 31 none =
      .error .valueError := by decide +kernel
  rw [herror]
  simp

end InVehicle.BuildIp
