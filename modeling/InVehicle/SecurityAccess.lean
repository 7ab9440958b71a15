import InVehicle.SessionRoute

/-!
# Security access

The keys of `SECURITY_ALGORITHM_XOR` and `SECURITY_ALGORITHM_PIN`, and what
`UdsUtils.security_access` does with the seed that the ECU has sent.
-/

set_option autoImplicit false

namespace InVehicle.SecurityAccess
open InVehicle.Effect InVehicle.SessionRoute InVehicle.UdsExchange InVehicle.Words

/-! ## Keys -/

theorem packL_eq_ok_iff (n : ℤ) (key : Bytes) :
    packL n = .ok key ↔ (0 ≤ n ∧ n < 256 ^ 4) ∧ byte.be 4 n.toNat = key := by
  rw [packL]
  by_cases h : 0 ≤ n ∧ n < 256 ^ 4
  · rw [if_pos h, Except.ok.injEq, and_iff_right h]
  · rw [if_neg h]
    exact iff_of_false (by simp) fun hkey => h hkey.1

theorem packL_inj {m n : ℤ} {key : Bytes} (hm : packL m = .ok key) (hn : packL n = .ok key) :
    m = n := by
  obtain ⟨⟨hm0, hmlt⟩, hmkey⟩ := (packL_eq_ok_iff m key).mp hm
  obtain ⟨⟨hn0, hnlt⟩, hnkey⟩ := (packL_eq_ok_iff n key).mp hn
  have hback : ∀ k : ℕ, (k : ℤ) < 256 ^ 4 → byte.ofBe (byte.be 4 k) = k := by
    intro k hk
    exact byte.ofBe_be 4 k (show k < 256 ^ 4 by omega)
  have h : m.toNat = n.toNat := by
    rw [← hback m.toNat (by omega), hmkey, ← hnkey, hback n.toNat (by omega)]
  omega

def keyInt (a : KeyAlgorithm) (seedInt : ℕ) : ℤ :=
  match a with
  | .xor xorVal => Int.xor seedInt xorVal
  | .pin n => seedInt + n

theorem call_eq (a : KeyAlgorithm) (seed : Bytes) :
    a.call seed = packL (keyInt a (byte.ofBe seed)) := by
  cases a <;> rfl

/-- `xor_val` or `pin` -/
def parameter : KeyAlgorithm → ℤ
  | .xor xorVal => xorVal
  | .pin n => n

def InRange (a : KeyAlgorithm) : Prop := 0 ≤ parameter a ∧ parameter a < 2 ^ 32

def Fits (a : KeyAlgorithm) (seed : Bytes) : Prop :=
  match a with
  | .xor _ => True
  | .pin n => byte.ofBe seed + n < 2 ^ 32

theorem keyInt_inj {a : KeyAlgorithm} (ha : InRange a) {m n : ℕ}
    (h : keyInt a m = keyInt a n) : m = n := by
  cases a with
  | xor xorVal =>
    obtain ⟨x, rfl⟩ := Int.eq_ofNat_of_zero_le ha.1
    have hxor : m ^^^ x = n ^^^ x := Int.ofNat_inj.mp h
    exact Nat.xor_left_inj.mp hxor
  | pin p =>
    have hsum : (m : ℤ) + p = n + p := h
    omega

theorem keyInt_fits_iff {a : KeyAlgorithm} (ha : InRange a) {seed : Bytes}
    (hseed : seed.length ≤ 4) :
    (0 ≤ keyInt a (byte.ofBe seed) ∧ keyInt a (byte.ofBe seed) < 256 ^ 4) ↔ Fits a seed := by
  have hlt : byte.ofBe seed < 2 ^ 32 := by
    have hpow : (256 : ℕ) ^ seed.length ≤ 256 ^ 4 := Nat.pow_le_pow_right (by omega) hseed
    have hof : byte.ofBe seed < 256 ^ seed.length := byte.ofBe_lt seed
    omega
  cases a with
  | xor xorVal =>
    obtain ⟨x, rfl⟩ := Int.eq_ofNat_of_zero_le ha.1
    have hx : x < 2 ^ 32 := by
      have hrange : (x : ℤ) < 2 ^ 32 := ha.2
      omega
    have hxor : byte.ofBe seed ^^^ x < 2 ^ 32 := Nat.xor_lt_two_pow hlt hx
    have hkey : keyInt (.xor x) (byte.ofBe seed) = ((byte.ofBe seed ^^^ x : ℕ) : ℤ) := rfl
    rw [hkey]
    refine iff_of_true ⟨by omega, by omega⟩ trivial
  | pin n =>
    have hn : 0 ≤ n := ha.1
    show (0 ≤ byte.ofBe seed + n ∧ byte.ofBe seed + n < 256 ^ 4) ↔ byte.ofBe seed + n < 2 ^ 32
    omega

/-- The key of a seed has four bytes, and no other seed of four bytes gives it. -/
def KeyOf (a : KeyAlgorithm) (seed key : Bytes) : Prop :=
  a.call seed = .ok key ∧ key.length = 4 ∧
    ∀ other : Bytes, other.length = seed.length → other ≠ seed → a.call other ≠ .ok key

theorem call_inj {a : KeyAlgorithm} (ha : InRange a) {seed other key : Bytes}
    (hlength : other.length = seed.length) (hseed : a.call seed = .ok key)
    (hother : a.call other = .ok key) : other = seed := by
  rw [call_eq] at hseed hother
  have h := keyInt_inj ha (packL_inj hother hseed)
  rw [← byte.be_ofBe other, ← byte.be_ofBe seed, h, hlength]

theorem keyOf_iff {a : KeyAlgorithm} (ha : InRange a) {seed : Bytes} (hseed : seed.length ≤ 4) :
    (∃ key, KeyOf a seed key) ↔ Fits a seed := by
  rw [← keyInt_fits_iff ha hseed]
  constructor
  · rintro ⟨key, hkey, -⟩
    rw [call_eq, packL_eq_ok_iff] at hkey
    exact hkey.1
  · intro h
    have hkey : a.call seed = .ok (byte.be 4 (keyInt a (byte.ofBe seed)).toNat) := by
      rw [call_eq, packL_eq_ok_iff]
      exact ⟨h, rfl⟩
    refine ⟨_, hkey, byte.length_be 4 _, fun other hlength hne hother => ?_⟩
    exact hne (call_inj ha hlength hkey hother)

/-! ## The two messages -/

section Messages

variable (u : Setting) (a : SecurityAlgorithm)

def requestSeed : Uds Bytes := do
  let request ← ofExcept (u.services.makeSeed a.seedSubfunction)
  let response ← u.exchange request
  ofExcept (u.services.interpretSeed response)

def sendKey (sessionKey : Bytes) : Uds Bool := do
  let request ← ofExcept (u.services.makeKey a.keySubfunction sessionKey)
  let response ← u.exchange request
  let securityLevelEcho ← ofExcept (u.services.interpretKey response)
  return some securityLevelEcho == a.keySubfunction

variable {u a} {log seeded : Log} {seed : Bytes}

theorem securityAccess_seed (hseed : requestSeed u a log = (.ok seed, seeded)) :
    u.securityAccess a log =
      if seed.all (· == 0) then (.ok true, seeded)
      else
        match a.key.call seed with
        | .ok sessionKey => sendKey u a sessionKey seeded
        | .error e => (.error e, seeded) := by
  obtain ⟨request, log₁, hrequest, hrest⟩ := bind_eq_ok.mp hseed
  obtain ⟨response, log₂, hresponse, hinterpret⟩ := bind_eq_ok.mp hrest
  refine (bind_ok hrequest).trans ((bind_ok hresponse).trans ((bind_ok hinterpret).trans ?_))
  by_cases hzero : seed.all (· == 0) = true
  · rw [if_pos hzero, if_pos hzero]
    rfl
  · rw [if_neg hzero, if_neg hzero]
    cases hkey : a.key.call seed with
    | ok sessionKey => rw [bind_ok (ofExcept_apply (.ok sessionKey) seeded)]; rfl
    | error e => rw [bind_error (ofExcept_apply (.error e) seeded)]

theorem exchange_counted (request : Request) (log : Log) :
    (u.exchange request log).2.exchanges = log.exchanges + 1 := by
  obtain ⟨x, -, hnext, -⟩ := exchange_run u request log
  rw [hnext, Log.exchanges, List.length_append]
  rfl

theorem sendKey_counted {sessionKey : Bytes} {request : Request}
    (hrequest : u.services.makeKey a.keySubfunction sessionKey = .ok request) (log : Log) :
    (sendKey u a sessionKey log).2.exchanges = log.exchanges + 1 := by
  rw [sendKey, hrequest, bind_ok (ofExcept_apply (.ok request) log)]
  have hcount := exchange_counted (u := u) request log
  match hresponse : u.exchange request log with
  | (.error e, t) =>
    rw [bind_error hresponse]
    rwa [hresponse] at hcount
  | (.ok response, t) =>
    rw [bind_ok hresponse]
    rw [hresponse] at hcount
    cases hecho : u.services.interpretKey response with
    | error e => rwa [bind_error (ofExcept_apply (.error e) t)]
    | ok echo => rwa [bind_ok (ofExcept_apply (.ok echo) t)]

variable (u a) (log seeded : Log) (seed : Bytes)

/-- An all-zero seed is taken as it is. For any other one there is a key, and what is left
is to send it. -/
def Proceeds : Prop :=
  if seed.all (· == 0) then u.securityAccess a log = (.ok true, seeded)
  else
    ∃ sessionKey, KeyOf a.key seed sessionKey ∧
      u.securityAccess a log = sendKey u a sessionKey seeded ∧
      ∀ request, u.services.makeKey a.keySubfunction sessionKey = .ok request →
        (u.securityAccess a log).2.exchanges = seeded.exchanges + 1

theorem access_proceeds_iff (ha : InRange a.key) (hlength : seed.length ≤ 4)
    (hseed : requestSeed u a log = (.ok seed, seeded)) :
    Proceeds u a log seeded seed ↔ seed.all (· == 0) = true ∨ Fits a.key seed := by
  rw [Proceeds, securityAccess_seed hseed]
  by_cases hzero : seed.all (· == 0) = true
  · rw [if_pos hzero, if_pos hzero]
    exact iff_of_true rfl (.inl hzero)
  · rw [if_neg hzero, if_neg hzero, or_iff_right hzero, ← keyOf_iff ha hlength]
    refine exists_congr fun sessionKey => and_iff_left_of_imp fun hkey => ?_
    rw [hkey.1]
    exact ⟨rfl, fun request hrequest => sendKey_counted hrequest seeded⟩

end Messages

/-! ## Runs -/

/-- An ECU that answers the k-th exchange with these bytes. -/
def answering (replies : ℕ → Bytes) : Setting where
  services := isoServices
  attempts := 1
  timeout := 2
  standardVersion := .iso14229_2020
  behaviour k _ := ⟨6, 0, [⟨0, replies k, 0⟩]⟩

/-- The ECU answers the first exchange with the seed and the second one with the echo. -/
def ecu (seed : Bytes) : Setting :=
  answering fun k => if k = 0 then 0x67 :: 1 :: seed else [0x67, 2]

def seedReceived (seed : Bytes) : Log :=
  ⟨[⟨⟨[0x27, 1], 0x67⟩, [.send [0x27, 1] 2 6, .recv 2 (0x67 :: 1 :: seed)]⟩]⟩

theorem access_proceeds_pin :
    Proceeds (ecu [0xFF, 0xFF, 0xFF, 0xFE]) ⟨some 1, some 2, .pin 1⟩ Log.start
      (seedReceived [0xFF, 0xFF, 0xFF, 0xFE]) [0xFF, 0xFF, 0xFF, 0xFE] :=
  (access_proceeds_iff (ecu [0xFF, 0xFF, 0xFF, 0xFE]) ⟨some 1, some 2, .pin 1⟩ Log.start
    (seedReceived [0xFF, 0xFF, 0xFF, 0xFE]) [0xFF, 0xFF, 0xFF, 0xFE]
    ⟨by decide, by decide⟩ (by decide) (by decide +kernel)).mpr
    (.inr (show (byte.ofBe [0xFF, 0xFF, 0xFF, 0xFE] : ℤ) + 1 < 2 ^ 32 by decide))

/-- One seed further, the sum with the pin is too large to be packed. -/
theorem top_seed_raises :
    (ecu [0xFF, 0xFF, 0xFF, 0xFF]).securityAccess ⟨some 1, some 2, .pin 1⟩ Log.start =
        (.error .structError, seedReceived [0xFF, 0xFF, 0xFF, 0xFF]) ∧
      ¬ Proceeds (ecu [0xFF, 0xFF, 0xFF, 0xFF]) ⟨some 1, some 2, .pin 1⟩ Log.start
        (seedReceived [0xFF, 0xFF, 0xFF, 0xFF]) [0xFF, 0xFF, 0xFF, 0xFF] := by
  have hraises : (KeyAlgorithm.pin 1).call [0xFF, 0xFF, 0xFF, 0xFF] = .error .structError := by
    decide
  refine ⟨by decide +kernel, ?_⟩
  rw [Proceeds, if_neg (by decide)]
  rintro ⟨sessionKey, ⟨hkey, -⟩, -⟩
  rw [hraises] at hkey
  cases hkey

end InVehicle.SecurityAccess
