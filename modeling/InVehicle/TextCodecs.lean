import InVehicle.Words

/-!
# Strict text encodings

An encoding writes each character as a few bytes. Its strict decoder guesses the
next character from the bytes and checks the guess, so it accepts exactly the
encoded texts: no overlong forms, no lone surrogates, nothing cut short.
-/

set_option autoImplicit false

namespace InVehicle.TextCodecs
open InVehicle.Words

abbrev Text := List Char

structure Codec where
  encodeChar : Char → List UInt8
  guess : List UInt8 → ℕ
  nonempty : ∀ c, encodeChar c ≠ []
  guess_encode : ∀ c r, guess (encodeChar c ++ r) = c.toNat

namespace Codec

variable (C : Codec)

def encode (s : Text) : List UInt8 := s.flatMap C.encodeChar

def head (b : List UInt8) : Option (Char × List UInt8) :=
  let c := Char.ofNat (C.guess b)
  if (C.encodeChar c).isPrefixOf b then some (c, b.drop (C.encodeChar c).length) else none

def decodeFuel : ℕ → List UInt8 → Option Text
  | _, [] => some []
  | 0, _ :: _ => none
  | n+1, b :: bs =>
    match C.head (b :: bs) with
    | some (c, r) => (decodeFuel n r).map (c :: ·)
    | none => none

def decode (b : List UInt8) : Option Text := C.decodeFuel b.length b

theorem head_encode (c : Char) (r : List UInt8) : C.head (C.encodeChar c ++ r) = some (c, r) := by
  have hprefix : (C.encodeChar c).isPrefixOf (C.encodeChar c ++ r) = true :=
    List.isPrefixOf_iff_prefix.mpr (List.prefix_append _ _)
  simp only [head, C.guess_encode, Char.ofNat_toNat, hprefix, if_true, List.drop_left]

theorem encode_head (b : List UInt8) (c : Char) (r : List UInt8) (h : C.head b = some (c, r)) :
    b = C.encodeChar c ++ r := by
  simp only [head] at h
  split_ifs at h with hprefix
  cases h
  exact (List.prefix_iff_eq_append.mp (List.isPrefixOf_iff_prefix.mp hprefix)).symm

theorem decodeFuel_iff (n : ℕ) (b : List UInt8) (hn : b.length ≤ n) (s : Text) :
    C.decodeFuel n b = some s ↔ b = C.encode s := by
  induction n generalizing b s with
  | zero =>
    obtain rfl := List.length_eq_zero_iff.mp (Nat.le_zero.mp hn)
    cases s with
    | nil => simp [decodeFuel, encode]
    | cons c s => simp [decodeFuel, encode, C.nonempty c]
  | succ n ih =>
    cases b with
    | nil =>
      cases s with
      | nil => simp [decodeFuel, encode]
      | cons c s => simp [decodeFuel, encode, C.nonempty c]
    | cons x b =>
      constructor
      · intro h
        simp only [decodeFuel] at h
        cases hh : C.head (x :: b) with
        | none => simp [hh] at h
        | some p =>
          obtain ⟨c, r⟩ := p
          have hb := C.encode_head _ c r hh
          have hpos := List.length_pos_iff.mpr (C.nonempty c)
          have hlen := congrArg List.length hb
          rw [List.length_append] at hlen
          simp only [hh, Option.map_eq_some_iff] at h
          obtain ⟨s', hs', rfl⟩ := h
          rw [hb, (ih r (by omega) s').mp hs']
          rfl
      · intro h
        cases s with
        | nil => cases h
        | cons c s =>
          have hpos := List.length_pos_iff.mpr (C.nonempty c)
          have hlen := congrArg List.length h
          rw [encode, List.flatMap_cons, List.length_append] at hlen
          have hhead : C.head (x :: b) = some (c, C.encode s) := h ▸ C.head_encode c (C.encode s)
          simp only [decodeFuel, hhead, Option.map_eq_some_iff]
          exact ⟨s, (ih _ (by rw [encode]; omega) s).mpr rfl, rfl⟩

theorem decode_iff (b : List UInt8) (s : Text) : C.decode b = some s ↔ b = C.encode s :=
  C.decodeFuel_iff b.length b le_rfl s

theorem decode_eq_none (b : List UInt8) : C.decode b = none ↔ ∀ s, b ≠ C.encode s := by
  rw [Option.eq_none_iff_forall_ne_some]
  exact forall_congr' fun s => not_congr (C.decode_iff b s)

theorem prefix_of_encode (s t : Text) (h : C.encode s <+: C.encode t) : s <+: t := by
  induction s generalizing t with
  | nil => exact List.nil_prefix
  | cons c s ih =>
    obtain ⟨r, hr⟩ := h
    rw [encode, List.flatMap_cons, List.append_assoc] at hr
    cases t with
    | nil =>
      have hc : C.encodeChar c = [] := (List.append_eq_nil_iff.mp hr).1
      exact absurd hc (C.nonempty c)
    | cons d t =>
      rw [encode, List.flatMap_cons] at hr
      have hhead := C.head_encode c (s.flatMap C.encodeChar ++ r)
      rw [hr, C.head_encode d (t.flatMap C.encodeChar)] at hhead
      obtain ⟨rfl, htail⟩ := Prod.mk.inj (Option.some.inj hhead)
      exact List.cons_prefix_cons.mpr ⟨rfl, ih t ⟨r, htail.symm⟩⟩

end Codec

theorem toNat_scalar (c : Char) : c.toNat < 0xD800 ∨ 0xDFFF < c.toNat ∧ c.toNat < 0x110000 :=
  c.valid

def utf8Char (c : Char) : List UInt8 :=
  let n := c.toNat
  if n < 0x80 then [UInt8.ofNat n]
  else if n < 0x800 then [UInt8.ofNat (0xC0 + n / 64), UInt8.ofNat (0x80 + n % 64)]
  else if n < 0x10000 then
    [UInt8.ofNat (0xE0 + n / 4096), UInt8.ofNat (0x80 + n / 64 % 64), UInt8.ofNat (0x80 + n % 64)]
  else
    [UInt8.ofNat (0xF0 + n / 262144), UInt8.ofNat (0x80 + n / 4096 % 64),
      UInt8.ofNat (0x80 + n / 64 % 64), UInt8.ofNat (0x80 + n % 64)]

def utf8Guess (b : List UInt8) : ℕ :=
  let x (i : ℕ) := (b.getD i 0).toNat
  if x 0 < 0x80 then x 0
  else if x 0 < 0xE0 then (x 0 - 0xC0) * 64 + (x 1 - 0x80)
  else if x 0 < 0xF0 then (x 0 - 0xE0) * 4096 + (x 1 - 0x80) * 64 + (x 2 - 0x80)
  else (x 0 - 0xF0) * 262144 + (x 1 - 0x80) * 4096 + (x 2 - 0x80) * 64 + (x 3 - 0x80)

theorem utf8Guess_char (c : Char) (r : List UInt8) : utf8Guess (utf8Char c ++ r) = c.toNat := by
  have hc := toNat_scalar c
  simp only [utf8Char]
  split_ifs with h1 h2 h3
  · simp only [utf8Guess, List.cons_append, List.getD_cons_zero, UInt8.toNat_ofNat']
    rw [if_pos (by omega)]
    omega
  · simp only [utf8Guess, List.cons_append, List.getD_cons_zero, List.getD_cons_succ,
      UInt8.toNat_ofNat']
    rw [if_neg (by omega), if_pos (by omega)]
    omega
  · simp only [utf8Guess, List.cons_append, List.getD_cons_zero, List.getD_cons_succ,
      UInt8.toNat_ofNat']
    rw [if_neg (by omega), if_neg (by omega), if_pos (by omega)]
    omega
  · simp only [utf8Guess, List.cons_append, List.getD_cons_zero, List.getD_cons_succ,
      UInt8.toNat_ofNat']
    rw [if_neg (by omega), if_neg (by omega), if_neg (by omega)]
    omega

def utf8 : Codec where
  encodeChar := utf8Char
  guess := utf8Guess
  nonempty c := by
    simp only [utf8Char]
    split_ifs <;> simp
  guess_encode := utf8Guess_char

def units (c : Char) : List ℕ :=
  let n := c.toNat
  if n < 0x10000 then [n] else [0xD800 + (n - 0x10000) / 1024, 0xDC00 + (n - 0x10000) % 1024]

def ofUnits (u v : ℕ) : ℕ :=
  if 0xD800 ≤ u ∧ u < 0xDC00 then 0x10000 + (u - 0xD800) * 1024 + (v - 0xDC00) else u

theorem units_lt (c : Char) : ∀ u ∈ units c, u < 256 ^ 2 := by
  have hc := toNat_scalar c
  simp only [units]
  split_ifs with h
  · simp only [List.mem_singleton]
    omega
  · simp only [List.mem_cons, List.not_mem_nil, or_false]
    omega

/-- `order` writes a unit, `read` reads one from the front. -/
structure Order where
  order : ℕ → List UInt8
  read : List UInt8 → ℕ
  length_order : ∀ u, (order u).length = 2
  read_order : ∀ u r, u < 256 ^ 2 → read (order u ++ r) = u

def littleEndian : Order where
  order := byte.le 2
  read b := byte.ofLe (b.take 2)
  length_order := byte.length_le 2
  read_order u r h := by rw [List.take_left' (byte.length_le 2 u), byte.ofLe_le 2 u h]

def bigEndian : Order where
  order := byte.be 2
  read b := byte.ofBe (b.take 2)
  length_order := byte.length_be 2
  read_order u r h := by rw [List.take_left' (byte.length_be 2 u), byte.ofBe_be 2 u h]

def utf16Char (o : Order) (c : Char) : List UInt8 := (units c).flatMap o.order

theorem utf16Char_guess (o : Order) (c : Char) (r : List UInt8) :
    ofUnits (o.read (utf16Char o c ++ r)) (o.read ((utf16Char o c ++ r).drop 2)) = c.toNat := by
  have hc := toNat_scalar c
  have hu := units_lt c
  simp only [units] at hu
  simp only [utf16Char, units]
  split_ifs with h
  · simp only [h, if_true, List.mem_singleton, forall_eq] at hu
    simp only [List.flatMap_cons, List.flatMap_nil, List.append_nil, o.read_order _ _ hu, ofUnits]
    rw [if_neg (by omega)]
  · simp only [h, if_false, List.mem_cons, List.not_mem_nil, or_false, forall_eq_or_imp,
      forall_eq] at hu
    simp only [List.flatMap_cons, List.flatMap_nil, List.append_nil, List.append_assoc,
      o.read_order _ _ hu.1, List.drop_left' (o.length_order _), o.read_order _ _ hu.2, ofUnits]
    rw [if_pos (by omega)]
    omega

theorem length_utf16Char (o : Order) (c : Char) :
    (utf16Char o c).length = 2 * (units c).length := by
  rw [utf16Char, List.length_flatMap]
  simp [o.length_order, Nat.mul_comm]

def utf16 (o : Order) : Codec where
  encodeChar := utf16Char o
  guess b := ofUnits (o.read b) (o.read (b.drop 2))
  nonempty c h := by
    have hlen := length_utf16Char o c
    simp only [h, List.length_nil, units] at hlen
    split_ifs at hlen
  guess_encode := utf16Char_guess o

theorem length_utf16 (o o' : Order) (s : Text) :
    ((utf16 o).encode s).length = ((utf16 o').encode s).length := by
  simp only [Codec.encode, List.length_flatMap]
  congr 1
  exact List.map_congr_left fun c _ =>
    (length_utf16Char o c).trans (length_utf16Char o' c).symm

end InVehicle.TextCodecs
