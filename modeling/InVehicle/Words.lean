import Mathlib.Data.Nat.Digits.Lemmas
import Mathlib.Data.Int.Bitwise

/-!
# Numbers of a fixed width

Little-endian and big-endian words of `k` digits. A digit is a byte or a bit.
-/

set_option autoImplicit false

namespace InVehicle.Words

/-- `digit` takes a number modulo the base. -/
structure Digit (δ : Type) where
  base : ℕ
  value : δ → ℕ
  digit : ℕ → δ
  one_lt : 1 < base
  value_lt : ∀ d, value d < base
  value_digit : ∀ n, value (digit n) = n % base
  digit_value : ∀ d, digit (value d) = d
  digit_mod : ∀ n, digit (n % base) = digit n

def byte : Digit UInt8 where
  base := 256
  value := UInt8.toNat
  digit := UInt8.ofNat
  one_lt := by omega
  value_lt d := d.toNat_lt
  value_digit n := UInt8.toNat_ofNat'
  digit_value d := UInt8.ofNat_toNat
  digit_mod n := by
    apply UInt8.toNat_inj.mp
    simp only [UInt8.toNat_ofNat']
    omega

def bit : Digit Bool where
  base := 2
  value := Bool.toNat
  digit n := n % 2 == 1
  one_lt := by omega
  value_lt d := Bool.toNat_lt d
  value_digit n := by rcases Nat.mod_two_eq_zero_or_one n with h | h <;> simp [h]
  digit_value d := by cases d <;> rfl
  digit_mod n := by simp

namespace Digit

variable {δ : Type} (D : Digit δ)

def ofLe (ds : List δ) : ℕ := Nat.ofDigits D.base (ds.map D.value)

def le : ℕ → ℕ → List δ
  | 0, _ => []
  | k+1, n => D.digit n :: le k (n / D.base)

def ofBe (ds : List δ) : ℕ := D.ofLe ds.reverse

def be (k n : ℕ) : List δ := (D.le k n).reverse

@[simp] theorem ofLe_nil : D.ofLe [] = 0 := rfl

@[simp] theorem ofLe_cons (d : δ) (ds : List δ) :
    D.ofLe (d :: ds) = D.value d + D.base * D.ofLe ds := Nat.ofDigits_cons

@[simp] theorem length_le (k n : ℕ) : (D.le k n).length = k := by
  induction k generalizing n with
  | zero => rfl
  | succ k ih => rw [le, List.length_cons, ih]

@[simp] theorem length_be (k n : ℕ) : (D.be k n).length = k := by
  rw [be, List.length_reverse, length_le]

theorem ofLe_lt (ds : List δ) : D.ofLe ds < D.base ^ ds.length := by
  have h := Nat.ofDigits_lt_base_pow_length (l := ds.map D.value) D.one_lt
  rw [List.length_map] at h
  apply h
  intro x hx
  obtain ⟨d, -, rfl⟩ := List.mem_map.mp hx
  exact D.value_lt d

theorem ofBe_lt (ds : List δ) : D.ofBe ds < D.base ^ ds.length := by
  have h := D.ofLe_lt ds.reverse
  rwa [List.length_reverse] at h

theorem ofLe_le_mod (k n : ℕ) : D.ofLe (D.le k n) = n % D.base ^ k := by
  induction k generalizing n with
  | zero => rw [le, ofLe_nil, Nat.pow_zero, Nat.mod_one]
  | succ k ih => rw [le, ofLe_cons, ih, D.value_digit, Nat.pow_succ', Nat.mod_mul]

theorem ofLe_le (k n : ℕ) (h : n < D.base ^ k) : D.ofLe (D.le k n) = n := by
  rw [ofLe_le_mod, Nat.mod_eq_of_lt h]

theorem le_add (j k n : ℕ) : D.le (j + k) n = D.le j n ++ D.le k (n / D.base ^ j) := by
  induction j generalizing n with
  | zero => rw [Nat.zero_add, le, List.nil_append, Nat.pow_zero, Nat.div_one]
  | succ j ih =>
    rw [Nat.succ_add, le, ih, le, List.cons_append, Nat.div_div_eq_div_mul, Nat.pow_succ']

theorem le_ofLe (ds : List δ) : D.le ds.length (D.ofLe ds) = ds := by
  induction ds with
  | nil => rfl
  | cons d ds ih =>
    have hd := D.value_lt d
    have hhead : D.digit (D.value d + D.base * D.ofLe ds) = d := by
      rw [← D.digit_mod, Nat.add_mul_mod_self_left, Nat.mod_eq_of_lt hd, D.digit_value]
    have htail : (D.value d + D.base * D.ofLe ds) / D.base = D.ofLe ds := by
      rw [Nat.add_mul_div_left _ _ (by omega), Nat.div_eq_of_lt hd, Nat.zero_add]
    rw [List.length_cons, ofLe_cons, le, hhead, htail, ih]

theorem ofBe_be (k n : ℕ) (h : n < D.base ^ k) : D.ofBe (D.be k n) = n := by
  rw [ofBe, be, List.reverse_reverse, D.ofLe_le k n h]

theorem be_ofBe (ds : List δ) : D.be ds.length (D.ofBe ds) = ds := by
  have h := D.le_ofLe ds.reverse
  rw [List.length_reverse] at h
  rw [be, ofBe, h, List.reverse_reverse]

end Digit

/-- The bits of a byte, the least significant first. -/
def byteBits (b : UInt8) : List Bool := bit.le 8 b.toNat

def ofByteBits (bits : List Bool) : UInt8 := UInt8.ofNat (bit.ofLe bits)

@[simp] theorem length_byteBits (b : UInt8) : (byteBits b).length = 8 := bit.length_le 8 _

theorem ofByteBits_byteBits (b : UInt8) : ofByteBits (byteBits b) = b := by
  rw [ofByteBits, byteBits, bit.ofLe_le 8 _ b.toNat_lt, UInt8.ofNat_toNat]

theorem toNat_ofNat_length {α : Type} {l : List α} (h : l.length < 256) :
    (UInt8.ofNat l.length).toNat = l.length := by
  rw [UInt8.toNat_ofNat', Nat.mod_eq_of_lt h]

theorem getD_le (k n i : ℕ) (h : i < k) : (bit.le k n).getD i false = n.testBit i := by
  induction k generalizing n i with
  | zero => omega
  | succ k ih =>
    cases i with
    | zero =>
      rw [Digit.le, List.getD_cons_zero, Nat.testBit_zero]
      rfl
    | succ i =>
      rw [Digit.le, List.getD_cons_succ, ih _ i (by omega), Nat.testBit_succ]
      rfl

/-! ## Integers cut off at a width -/

theorem getLsbD_ofInt (w i : ℕ) (n : ℤ) :
    (BitVec.ofInt w n).getLsbD i = (decide (i < w) && n.testBit i) := by
  cases n with
  | ofNat n =>
    rw [Int.ofNat_eq_natCast, BitVec.ofInt_natCast, BitVec.getLsbD_ofNat]
    rfl
  | negSucc n =>
    rw [BitVec.ofInt_negSucc_eq_not_ofNat, BitVec.getLsbD_not, BitVec.getLsbD_ofNat]
    by_cases h : i < w
    · simp [h, Int.testBit]
    · simp [h]

theorem ofInt_eq_iff (w : ℕ) (m n : ℤ) :
    BitVec.ofInt w m = BitVec.ofInt w n ↔ ∀ i < w, m.testBit i = n.testBit i := by
  rw [BitVec.eq_of_getLsbD_eq_iff]
  apply forall₂_congr
  intro i hi
  rw [getLsbD_ofInt, getLsbD_ofInt, decide_eq_true hi, Bool.true_and, Bool.true_and]

/-- Setting the bits of `t` besides those of `u` changes nothing exactly if they are set. -/
theorem or_eq_or_or_iff {w : ℕ} {a u t : BitVec w} (h : u &&& t = 0) :
    a ||| u = a ||| (u ||| t) ↔ a &&& t = t := by
  simp only [BitVec.eq_of_getLsbD_eq_iff, BitVec.getLsbD_or, BitVec.getLsbD_and] at h ⊢
  apply forall₂_congr
  intro i hi
  have hdisjoint := h i hi
  grind

end InVehicle.Words
