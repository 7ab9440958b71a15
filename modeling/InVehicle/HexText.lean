import InVehicle.Basic
import InVehicle.TextCodecs
import InVehicle.Words

/-!
# Hexadecimal text

`bytes.hex` and the reading of its result, two digits for each byte.
-/

set_option autoImplicit false

namespace InVehicle.HexText
open InVehicle.TextCodecs InVehicle.Words

def hexDigit (n : ℕ) : Char := "0123456789abcdef".toList.getD n '0'

def hexByte (b : ℕ) : Text := [hexDigit (b / 16), hexDigit (b % 16)]

def hexValue (c : Char) : Option ℕ :=
  if '0' ≤ c ∧ c ≤ '9' then some (c.toNat - 48)
  else if 'a' ≤ c ∧ c ≤ 'f' then some (c.toNat - 87)
  else if 'A' ≤ c ∧ c ≤ 'F' then some (c.toNat - 55)
  else none

def hex (b : Bytes) : Text := b.flatMap fun x => hexByte x.toNat

/-- `bytes.fromhex`, for digits that no blanks separate. -/
def fromHex : Text → Option Bytes
  | [] => some []
  | [_] => none
  | c :: d :: t => do
    let high ← hexValue c
    let low ← hexValue d
    let rest ← fromHex t
    return UInt8.ofNat (16 * high + low) :: rest

theorem hexValue_hexDigit (n : ℕ) (h : n < 16) : hexValue (hexDigit n) = some n := by
  have hall : ∀ n : Fin 16, hexValue (hexDigit n) = some n.val := by decide
  exact hall ⟨n, h⟩

theorem hex_cons (x : UInt8) (b : Bytes) :
    hex (x :: b) = hexDigit (x.toNat / 16) :: hexDigit (x.toNat % 16) :: hex b := rfl

theorem fromHex_hex (b : Bytes) : fromHex (hex b) = some b := by
  induction b with
  | nil => rfl
  | cons x b ih =>
    have hx := x.toNat_lt
    have hhigh := hexValue_hexDigit (x.toNat / 16) (by omega)
    have hlow := hexValue_hexDigit (x.toNat % 16) (by omega)
    have hbyte : UInt8.ofNat (16 * (x.toNat / 16) + x.toNat % 16) = x := by
      rw [Nat.div_add_mod, UInt8.ofNat_toNat]
    rw [hex_cons, fromHex, hhigh, hlow, ih]
    exact congrArg (fun y => some (y :: b)) hbyte

theorem hex_injective : Function.Injective hex := by
  intro a b h
  have ha := fromHex_hex a
  rw [h, fromHex_hex b] at ha
  exact (Option.some.inj ha).symm

/-! ## The same digits read as a decimal number -/

def intMaxStrDigits : ℕ := 4300

/-- `int(text)`, for a text without sign, blanks and underscores; `none` for a ValueError. -/
def intOfText (t : Text) : Option ℕ :=
  if t ≠ [] ∧ t.length ≤ intMaxStrDigits ∧ t.all Char.isDigit then
    some (Nat.ofDigits 10 (t.reverse.map fun c => c.toNat - 48))
  else none

def nibbles (b : Bytes) : List ℕ := b.flatMap fun x => [x.toNat / 16, x.toNat % 16]

theorem nibbles_cons (x : UInt8) (b : Bytes) :
    nibbles (x :: b) = x.toNat / 16 :: x.toNat % 16 :: nibbles b := rfl

theorem length_nibbles (b : Bytes) : (nibbles b).length = 2 * b.length := by
  induction b with
  | nil => rfl
  | cons x b ih =>
    rw [nibbles_cons, List.length_cons, List.length_cons, List.length_cons, ih]
    omega

theorem nibbles_lt (b : Bytes) : ∀ n ∈ nibbles b, n < 16 := by
  intro n hn
  obtain ⟨x, -, hx⟩ := List.mem_flatMap.mp hn
  have hlt := x.toNat_lt
  simp only [List.mem_cons, List.not_mem_nil, or_false] at hx
  omega

theorem hex_eq_map (b : Bytes) : hex b = (nibbles b).map hexDigit := by
  induction b with
  | nil => rfl
  | cons x b ih => rw [hex_cons, nibbles_cons, List.map_cons, List.map_cons, ih]

theorem ofBe_nibbles (b : Bytes) : byte.ofBe b = Nat.ofDigits 16 (nibbles b).reverse := by
  have hle (l : Bytes) : byte.ofLe l =
      Nat.ofDigits 16 (l.flatMap fun x => [x.toNat % 16, x.toNat / 16]) := by
    induction l with
    | nil => rfl
    | cons x l ih =>
      rw [Digit.ofLe_cons, ih, List.flatMap_cons, List.cons_append, List.cons_append,
        List.nil_append, Nat.ofDigits_cons, Nat.ofDigits_cons]
      show x.toNat + 256 * _ = _
      omega
  rw [Digit.ofBe, hle, nibbles, List.reverse_flatMap]
  rfl

/-- The text of the bytes is a decimal number that `int` reads. -/
def Readable (b : Bytes) : Prop :=
  b ≠ [] ∧ 2 * b.length ≤ intMaxStrDigits ∧ ∀ n ∈ nibbles b, n ≤ 9

instance (b : Bytes) : Decidable (Readable b) := by
  unfold Readable
  infer_instance

theorem isDigit_hexDigit (n : ℕ) (h : n < 16) : (hexDigit n).isDigit = true ↔ n ≤ 9 := by
  have hall : ∀ n : Fin 16, (hexDigit n).isDigit = true ↔ n.val ≤ 9 := by decide
  exact hall ⟨n, h⟩

theorem value_hexDigit (n : ℕ) (h : n ≤ 9) : (hexDigit n).toNat - 48 = n := by
  have hall : ∀ n : Fin 10, (hexDigit n).toNat - 48 = n.val := by decide
  exact hall ⟨n, by omega⟩

theorem intOfText_hex (b : Bytes) :
    intOfText (hex b) =
      if Readable b then some (Nat.ofDigits 10 (nibbles b).reverse) else none := by
  have hne : hex b ≠ [] ↔ b ≠ [] := by
    cases b with
    | nil => simp [hex]
    | cons x b => simp [hex_cons]
  have hlen : (hex b).length = 2 * b.length := by
    rw [hex_eq_map, List.length_map, length_nibbles]
  have hdigits : (hex b).all Char.isDigit ↔ ∀ n ∈ nibbles b, n ≤ 9 := by
    rw [hex_eq_map, List.all_eq_true, List.forall_mem_map]
    exact forall₂_congr fun n hn => isDigit_hexDigit n (nibbles_lt b n hn)
  have hread : (hex b ≠ [] ∧ (hex b).length ≤ intMaxStrDigits ∧ (hex b).all Char.isDigit) ↔
      Readable b := by
    rw [hlen, Readable]
    exact and_congr hne (and_congr Iff.rfl hdigits)
  by_cases h : Readable b
  · have hvalue : (hex b).reverse.map (fun c => c.toNat - 48) = (nibbles b).reverse := by
      rw [hex_eq_map, ← List.map_reverse, List.map_map]
      apply (List.map_congr_left _).trans (List.map_id _)
      intro n hn
      exact value_hexDigit n (h.2.2 n (List.mem_reverse.mp hn))
    rw [intOfText, if_pos (hread.mpr h), if_pos h, hvalue]
  · rw [intOfText, if_neg (fun hb => h (hread.mp hb)), if_neg h]

/-- The number whose hexadecimal digits are the decimal digits of `n`. -/
def bcd (n : ℕ) : ℕ := Nat.ofDigits 16 (Nat.digits 10 n)

theorem bcd_ofDigits (ds : List ℕ) (h : ∀ d ∈ ds, d ≤ 9) :
    bcd (Nat.ofDigits 10 ds) = Nat.ofDigits 16 ds := by
  induction ds with
  | nil => rfl
  | cons d ds ih =>
    obtain ⟨hd, hds⟩ := List.forall_mem_cons.mp h
    have hrest := ih hds
    rw [Nat.ofDigits_cons, Nat.ofDigits_cons]
    by_cases hzero : d ≠ 0 ∨ Nat.ofDigits 10 ds ≠ 0
    · rw [bcd, Nat.digits_add 10 (by omega) d _ (by omega) hzero, Nat.ofDigits_cons, ← hrest, bcd]
    · push Not at hzero
      rw [hzero.2] at hrest
      rw [hzero.1, hzero.2, ← hrest]
      rfl

theorem digits_bcd (n : ℕ) : Nat.digits 16 (bcd n) = Nat.digits 10 n := by
  apply Nat.digits_ofDigits 16 (by omega)
  · intro d hd
    have hlt := Nat.digits_lt_base (by omega) hd
    omega
  · intro hne
    exact Nat.getLast_digit_ne_zero 10 (Nat.digits_ne_nil_iff_ne_zero.mp hne)

theorem bcd_injective : Function.Injective bcd := by
  intro m n h
  apply Nat.digits_inj_iff.mp
  rw [← digits_bcd m, h, digits_bcd n]

theorem ofDigits_eq_iff (b : Bytes) (h : ∀ n ∈ nibbles b, n ≤ 9) (n : ℕ) :
    Nat.ofDigits 10 (nibbles b).reverse = n ↔ byte.ofBe b = bcd n := by
  rw [ofBe_nibbles, ← bcd_ofDigits _ fun d hd => h d (List.mem_reverse.mp hd)]
  exact bcd_injective.eq_iff.symm

theorem bcd_eq_self_iff (n : ℕ) (h : n < 256) : n = bcd n ↔ n ≤ 9 := by
  have hall : ∀ n : Fin 256, n.val = bcd n.val ↔ n.val ≤ 9 := by decide +kernel
  exact hall ⟨n, h⟩

end InVehicle.HexText
