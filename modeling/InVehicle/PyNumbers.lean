import Mathlib.Data.Int.ConditionallyCompleteOrder
import Mathlib.Data.List.Nodup
import InVehicle.TextCodecs

/-!
# Numbers of the language

`int` at a text and a base, and `range` with steps of one.
-/

set_option autoImplicit false

namespace InVehicle.PyNumbers
open TextCodecs

inductive NumberError where
  | valueError
  | overflowError
  | notImplementedError
  deriving DecidableEq, Repr

/-- What the interpreter brings along: the Unicode tables behind ASCII, the limit on
the digits of a text (none at 0) and `sys.maxsize`. -/
structure Interpreter where
  isSpace : Char → Bool
  decimal : Char → Option ℕ
  maxStrDigits : ℕ
  maxsize : ℕ

/-! ## Text to number -/

def digitValue (c : Char) : Option ℕ :=
  if '0' ≤ c ∧ c ≤ '9' then some (c.toNat - 48)
  else if 'a' ≤ c ∧ c ≤ 'z' then some (c.toNat - 87)
  else if 'A' ≤ c ∧ c ≤ 'Z' then some (c.toNat - 55)
  else none

def isAsciiSpace (c : Char) : Bool := c = ' ' ∨ '\t' ≤ c ∧ c ≤ '\r'

/-- Blanks and digits of other scripts stand for those of ASCII. -/
def toAscii (py : Interpreter) (s : Text) : Text :=
  if s.all fun c => c.toNat < 128 then s
  else s.map fun c =>
    if c.toNat < 127 then c
    else if py.isSpace c then ' '
    else match py.decimal c with
      | some d => Char.ofNat (48 + d)
      | none => '?'

/-- The value of the digits in front, how many they are, and what follows them.
A single underscore may stand between two digits; `bare` says that a digit has to come
next. -/
def scanDigits (base : ℕ) (bare : Bool) (value count : ℕ) : Text → Option (ℕ × ℕ × Text)
  | [] => if bare then none else some (value, count, [])
  | c :: t =>
    if c = '_' then
      if bare then none else scanDigits base true value count t
    else match (digitValue c).filter (· < base) with
      | some d => scanDigits base false (value * base + d) (count + 1) t
      | none => if bare then none else some (value, count, c :: t)

def sign : Text → Bool × Text
  | '+' :: t => (false, t)
  | '-' :: t => (true, t)
  | t => (false, t)

def basePrefix : Text → Option (ℕ × Text)
  | '0' :: c :: t =>
    if c = 'x' ∨ c = 'X' then some (16, t)
    else if c = 'o' ∨ c = 'O' then some (8, t)
    else if c = 'b' ∨ c = 'B' then some (2, t)
    else none
  | _ => none

def skipUnderscore : Text → Text
  | '_' :: t => t
  | t => t

/-- The base to read in, whether only zero may follow, and the digits. Base 0 takes
the base from the prefix and refuses decimal numbers with leading zeros. -/
def chooseBase (base : ℕ) (t : Text) : ℕ × Bool × Text :=
  match basePrefix t with
  | some (named, rest) =>
    if base = 0 ∨ base = named then (named, false, skipUnderscore rest) else (base, false, t)
  | none => if base = 0 then (10, t.head? = some '0', t) else (base, false, t)

/-- `int(s, base)`. -/
def int (py : Interpreter) (base : ℕ) (s : Text) : Except NumberError ℤ :=
  let (negative, unsigned) := sign ((toAscii py s).dropWhile isAsciiSpace)
  let (radix, onlyZero, digits) := chooseBase base unsigned
  match scanDigits radix true 0 0 digits with
  | none => .error .valueError
  | some (value, count, rest) =>
    -- the limit is not for bases that are powers of two
    if radix = 10 ∧ 640 < count ∧ 0 < py.maxStrDigits ∧ py.maxStrDigits < count then
      .error .valueError
    else if onlyZero ∧ value ≠ 0 then .error .valueError
    else if ¬rest.all isAsciiSpace then .error .valueError
    else .ok (if negative then -value else value)

/-! ## Decimal numbers -/

def Readable (py : Interpreter) (n : ℕ) : Prop :=
  py.maxStrDigits = 0 ∨ (Nat.toDigits 10 n).length ≤ max 640 py.maxStrDigits

theorem digitValue_of_isDigit {c : Char} (h : c.isDigit) : digitValue c = some (c.toNat - 48) := by
  have hrange : '0' ≤ c ∧ c ≤ '9' := by
    rw [Char.isDigit_iff_toNat] at h
    exact ⟨Char.le_def.mpr (UInt32.le_iff_toNat_le.mpr h.1),
      Char.le_def.mpr (UInt32.le_iff_toNat_le.mpr h.2)⟩
  rw [digitValue, if_pos hrange]

theorem ne_of_isDigit {c d : Char} (hc : c.isDigit) (hd : d.isDigit = false) : c ≠ d := by
  rintro rfl
  rw [hc] at hd
  cases hd

theorem scanDigits_digits {t : Text} (h : ∀ c ∈ t, c.isDigit) (ht : t ≠ []) (value count : ℕ)
    (bare : Bool) :
    scanDigits 10 bare value count t =
      some (Nat.ofDigitChars 10 t value, count + t.length, []) := by
  induction t generalizing value count bare with
  | nil => exact absurd rfl ht
  | cons c t ih =>
    rw [List.forall_mem_cons] at h
    have hvalue : (digitValue c).filter (· < 10) = some (c.toNat - 48) := by
      have hc := Char.isDigit_iff_toNat.mp h.1
      have hlt : c.toNat - 48 < 10 := by
        change 48 ≤ c.toNat ∧ c.toNat ≤ 57 at hc
        omega
      rw [digitValue_of_isDigit h.1, Option.filter_some, if_pos (decide_eq_true hlt)]
    rw [scanDigits, if_neg (ne_of_isDigit h.1 rfl), hvalue, Nat.ofDigitChars_cons]
    simp only [Nat.mul_comm value 10]
    cases t with
    | nil => rfl
    | cons d t =>
      rw [ih h.2 (by simp), List.length_cons, List.length_cons, List.length_cons]
      simp only [Nat.add_assoc, Nat.add_comm 1]
      rfl

theorem toAscii_digits (py : Interpreter) {t : Text} (h : ∀ c ∈ t, c.isDigit) :
    toAscii py t = t := by
  refine if_pos (List.all_eq_true.mpr fun c hc => decide_eq_true ?_)
  have hrange := Char.isDigit_iff_toNat.mp (h c hc)
  change 48 ≤ c.toNat ∧ c.toNat ≤ 57 at hrange
  omega

theorem sign_cons {c : Char} {t : Text} (hplus : c ≠ '+') (hminus : c ≠ '-') :
    sign (c :: t) = (false, c :: t) := by
  unfold sign
  split
  · exact absurd (List.cons.inj ‹_›).1 hplus
  · exact absurd (List.cons.inj ‹_›).1 hminus
  · rfl

theorem sign_digits {c : Char} {t : Text} (h : c.isDigit) :
    sign ((c :: t).dropWhile isAsciiSpace) = (false, c :: t) := by
  have hspace : isAsciiSpace c = false := by
    have hrange := Char.isDigit_iff_toNat.mp h
    change 48 ≤ c.toNat ∧ c.toNat ≤ 57 at hrange
    have htab : ¬c ≤ '\r' := by
      intro hle
      have hnat : c.toNat ≤ 13 := UInt32.le_iff_toNat_le.mp (Char.le_def.mp hle)
      omega
    have hblank : c ≠ ' ' := ne_of_isDigit h (by decide)
    simp [isAsciiSpace, htab, hblank]
  rw [List.dropWhile_cons_of_neg (by simp [hspace])]
  exact sign_cons (ne_of_isDigit h (by decide)) (ne_of_isDigit h (by decide))

theorem chooseBase_ten (t : Text) : chooseBase 10 t = (10, false, t) := by
  rw [chooseBase]
  unfold basePrefix
  split
  · split at * <;> grind
  · rfl

theorem int_toDigits (py : Interpreter) {n : ℕ} (h : Readable py n) :
    int py 10 (Nat.toDigits 10 n) = .ok n := by
  have hdigits : ∀ c ∈ Nat.toDigits 10 n, c.isDigit := fun c hc =>
    Nat.isDigit_of_mem_toDigits (by decide) (by decide) hc
  have hne : Nat.toDigits 10 n ≠ [] := Nat.toDigits_ne_nil
  have hsign : sign ((Nat.toDigits 10 n).dropWhile isAsciiSpace) = (false, Nat.toDigits 10 n) := by
    obtain ⟨c, t, ht⟩ := List.exists_cons_of_ne_nil hne
    rw [ht]
    exact sign_digits (hdigits c (ht ▸ List.mem_cons_self))
  have hlimit : ¬(640 < 0 + (Nat.toDigits 10 n).length ∧ 0 < py.maxStrDigits ∧
      py.maxStrDigits < 0 + (Nat.toDigits 10 n).length) := by
    rw [Readable] at h
    omega
  rw [int, toAscii_digits py hdigits, hsign]
  simp only [chooseBase_ten, scanDigits_digits hdigits hne, true_and]
  rw [if_neg hlimit, Nat.ofDigitChars_ten_toDigits]
  rfl

/-! ## Ranges -/

structure Range where
  start : ℤ
  stop : ℤ
  deriving DecidableEq, Repr

namespace Range

def size (r : Range) : ℕ := (r.stop - r.start).toNat

def numbers (r : Range) : List ℤ := (List.range r.size).map fun i : ℕ => r.start + i

/-- `len(r)`. -/
def len (py : Interpreter) (r : Range) : Except NumberError ℕ :=
  if py.maxsize < r.size then .error .overflowError else .ok r.size

/-- `r == s`: ranges are equal as sequences. -/
def eq (r s : Range) : Bool := r.size = s.size ∧ (r.size = 0 ∨ r.start = s.start)

/-- The closed interval of a token `start-last`. -/
def interval (r : Range) : Set ℤ := Set.Icc r.start (r.stop - 1)

def first (r : Range) : Option ℤ := if r.size = 0 then none else some r.start

variable (r s : Range)

theorem mem_numbers (n : ℤ) : n ∈ r.numbers ↔ r.start ≤ n ∧ n < r.stop := by
  rw [numbers, List.mem_map]
  constructor
  · rintro ⟨i, hi, rfl⟩
    rw [List.mem_range, size] at hi
    omega
  · intro h
    refine ⟨(n - r.start).toNat, ?_, by omega⟩
    rw [List.mem_range, size]
    omega

theorem mem_numbers_iff_interval (n : ℤ) : n ∈ r.numbers ↔ n ∈ r.interval := by
  rw [mem_numbers, interval, Set.mem_Icc, Int.le_sub_one_iff]

theorem numbers_nodup : r.numbers.Nodup := by
  refine List.Nodup.map (fun i j h => ?_) List.nodup_range
  exact Int.ofNat.inj (Int.add_left_cancel h)

@[simp] theorem length_numbers : r.numbers.length = r.size := by simp [numbers]

theorem eq_iff_numbers : r.eq s = true ↔ r.numbers = s.numbers := by
  rw [eq, decide_eq_true_eq]
  constructor
  · rintro ⟨hsize, hzero | hstart⟩
    · rw [numbers, numbers, ← hsize, hzero]
      rfl
    · rw [numbers, numbers, hsize, hstart]
  · intro h
    have hsize : r.size = s.size := by rw [← length_numbers, h, length_numbers]
    refine ⟨hsize, ?_⟩
    by_cases hzero : r.size = 0
    · exact .inl hzero
    · obtain ⟨k, hk⟩ := Nat.exists_eq_succ_of_ne_zero hzero
      rw [numbers, numbers, ← hsize, hk, List.range_succ_eq_map] at h
      exact .inr (by simpa using (List.cons.inj h).1)

theorem eq_iff_first (h : r.stop = s.stop) : r.eq s = true ↔ r.first = s.first := by
  rw [eq, first, first, decide_eq_true_eq, size, size, h]
  by_cases hr : (s.stop - r.start).toNat = 0 <;> by_cases hs : (s.stop - s.start).toNat = 0 <;>
    simp [hr, hs] <;> omega

end Range

end InVehicle.PyNumbers
