import Mathlib.Combinatorics.Colex
import Mathlib.Data.Nat.ModEq

/-!
# Words made of single bits

Each of some things has its own bit. A list of them makes a word by OR or by
addition: the two differ by what the list repeats.
-/

set_option autoImplicit false

namespace InVehicle.BitMasks

variable {α : Type} (position : α → ℕ)

def value (a : α) : ℕ := 2 ^ position a

def mask : List α → ℕ
  | [] => 0
  | a :: as => value position a ||| mask as

theorem testBit_mask (as : List α) (i : ℕ) :
    (mask position as).testBit i = true ↔ ∃ a ∈ as, position a = i := by
  induction as with
  | nil => simp [mask]
  | cons a as ih =>
    rw [mask, value, Nat.testBit_or, Bool.or_eq_true, ih, Nat.testBit_two_pow]
    simp only [decide_eq_true_eq, List.mem_cons, exists_eq_or_imp]

theorem mask_lt {w : ℕ} (as : List α) (h : ∀ a, position a < w) : mask position as < 2 ^ w := by
  induction as with
  | nil => exact Nat.two_pow_pos w
  | cons a as ih => exact Nat.or_lt_two_pow (Nat.pow_lt_pow_right Nat.one_lt_two (h a)) ih

variable {position} (hposition : position.Injective)
include hposition

theorem testBit_mask_position (as : List α) (a : α) :
    (mask position as).testBit (position a) = true ↔ a ∈ as := by
  rw [testBit_mask]
  constructor
  · rintro ⟨b, hb, hab⟩
    rwa [← hposition hab]
  · intro h
    exact ⟨a, h, rfl⟩

/-! ## Addition in place of OR -/

variable [DecidableEq α]

theorem mask_eq_sum (as : List α) : mask position as = ∑ a ∈ as.toFinset, value position a := by
  have hbits : (mask position as).bitIndices.toFinset = as.toFinset.image position := by
    ext i
    rw [List.mem_toFinset, Nat.mem_bitIndices, testBit_mask]
    simp
  rw [← Finset.sum_toFinset_bitIndices_two_pow (mask position as), hbits,
    Finset.sum_image hposition.injOn]
  rfl

omit hposition

def repeats : List α → List α
  | [] => []
  | a :: as => if a ∈ as then a :: repeats as else repeats as

theorem repeats_eq_nil_iff (as : List α) : repeats as = [] ↔ as.Nodup := by
  induction as with
  | nil => simp [repeats]
  | cons a as ih =>
    rw [repeats, List.nodup_cons, ← ih]
    by_cases h : a ∈ as <;> simp [h]

theorem repeats_length (as : List α) (h : as ≠ []) : (repeats as).length < as.length := by
  induction as with
  | nil => exact absurd rfl h
  | cons a as ih =>
    by_cases hmem : a ∈ as
    · rw [repeats, if_pos hmem, List.length_cons, List.length_cons]
      exact Nat.succ_lt_succ (ih (List.ne_nil_of_mem hmem))
    · rw [repeats, if_neg hmem, List.length_cons]
      rcases eq_or_ne as [] with rfl | has
      · exact Nat.zero_lt_one
      · exact Nat.lt_succ_of_lt (ih has)

theorem sum_eq (f : α → ℕ) (as : List α) :
    (as.map f).sum = (∑ a ∈ as.toFinset, f a) + ((repeats as).map f).sum := by
  induction as with
  | nil => simp [repeats]
  | cons a as ih =>
    by_cases h : a ∈ as
    · rw [repeats, if_pos h, List.toFinset_cons,
        Finset.insert_eq_of_mem (List.mem_toFinset.mpr h)]
      simp only [List.map_cons, List.sum_cons, ih]
      omega
    · rw [repeats, if_neg h, List.toFinset_cons,
        Finset.sum_insert (mt List.mem_toFinset.mp h)]
      simp only [List.map_cons, List.sum_cons, ih]
      omega

include hposition

/-- In a word of `w` bits, the sum is the OR exactly if the repeats vanish. -/
theorem sum_mod_eq_mask_iff {w : ℕ} (hw : ∀ a, position a < w) (as : List α) :
    (as.map (value position)).sum % 2 ^ w = mask position as ↔
      2 ^ w ∣ ((repeats as).map (value position)).sum := by
  rw [sum_eq, ← mask_eq_sum hposition, ← Nat.add_modEq_left_iff (a := mask position as),
    Nat.ModEq, Nat.mod_eq_of_lt (mask_lt position as hw)]

end InVehicle.BitMasks
