import Mathlib.Data.Nat.Bitwise
import Mathlib.Data.Set.Defs

/-!
# Words under a netmask

A word of `w` bits has a network part, its leading `p` bits, and a host part, the
bits below them. The netmask keeps the first and clears the second.
-/

set_option autoImplicit false

namespace InVehicle.Netmasks

def allOnes (w : ℕ) : ℕ := 2 ^ w - 1

def netmask (w p : ℕ) : ℕ := allOnes w ^^^ (allOnes w >>> p)

/-- The words with the bits of `v` from bit `h` on. -/
def network (h v : ℕ) : Set ℕ := {x | x / 2 ^ h = v / 2 ^ h}

variable {w p h v : ℕ}

theorem testBit_netmask (i : ℕ) :
    (netmask w p).testBit i = decide (w - p ≤ i ∧ i < w) := by
  have hones : (allOnes w >>> p).testBit i = decide (i < w - p) := by
    rw [allOnes, Nat.testBit_shiftRight, Nat.testBit_two_pow_sub_one]
    exact decide_eq_decide.mpr (by omega)
  rw [netmask, Nat.testBit_xor, hones, allOnes, Nat.testBit_two_pow_sub_one]
  by_cases hlow : i < w - p
  · have hi : i < w := by omega
    simp only [hi, hlow, Nat.not_le.mpr hlow, decide_true, Bool.xor_self, false_and, decide_false]
  · simp [hlow, Nat.le_of_not_lt hlow]

/-- Below `2 ^ w` the mask rounds down to the start of the network. -/
theorem and_netmask (hv : v < 2 ^ w) : v &&& netmask w p = v / 2 ^ (w - p) * 2 ^ (w - p) := by
  apply Nat.eq_of_testBit_eq
  intro i
  rw [Nat.testBit_and, testBit_netmask, Nat.testBit_mul_two_pow]
  by_cases hlow : w - p ≤ i
  · rw [Nat.testBit_div_two_pow, Nat.sub_add_cancel hlow]
    by_cases hi : i < w
    · simp [hlow, hi]
    · have hlt : v < 2 ^ i := hv.trans_le (Nat.pow_le_pow_right (by omega) (by omega))
      simp [hi, Nat.testBit_lt_two_pow hlt]
  · simp [hlow]

theorem start_add_div (n host : ℕ) (hh : host < 2 ^ h) :
    (n * 2 ^ h + host) / 2 ^ h = n := by
  rw [Nat.mul_comm, Nat.mul_add_div (Nat.two_pow_pos h), Nat.div_eq_of_lt hh, Nat.add_zero]

theorem start_add_mod (n host : ℕ) (hh : host < 2 ^ h) :
    (n * 2 ^ h + host) % 2 ^ h = host := by
  rw [Nat.mul_comm, Nat.mul_add_mod, Nat.mod_eq_of_lt hh]

theorem start_add_mem_network (host : ℕ) (hh : host < 2 ^ h) :
    v / 2 ^ h * 2 ^ h + host ∈ network h v :=
  start_add_div (v / 2 ^ h) host hh

/-- A network lies within the words of `w` bits when one of its words does. -/
theorem lt_of_mem_network {x : ℕ} (hh : h ≤ w) (hv : v < 2 ^ w) (hx : x ∈ network h v) :
    x < 2 ^ w := by
  have hsplit : 2 ^ w = 2 ^ (w - h) * 2 ^ h := by
    rw [← Nat.pow_add, Nat.sub_add_cancel hh]
  have hquot : x / 2 ^ h = v / 2 ^ h := hx
  rw [hsplit] at hv ⊢
  rw [← Nat.div_lt_iff_lt_mul (Nat.two_pow_pos h)] at hv ⊢
  rwa [hquot]

end InVehicle.Netmasks
