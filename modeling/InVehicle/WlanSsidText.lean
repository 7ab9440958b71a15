import InVehicle.WlanElementLaws

/-!
# The text of an SSID

The adapter of the SSID remembers neither the encoding a text came in nor that bytes
are to be let through. A text comes back in the encoding that gives it the right
length, and UTF-8 is asked first.
-/

set_option autoImplicit false

namespace InVehicle.WlanSsidText
open InVehicle.Formats InVehicle.Formats.Format InVehicle.FormatLaws InVehicle.TextCodecs
open InVehicle.WlanElements InVehicle.WlanElementLaws

/-- The adapter reads the bytes as some value, and writes the value as the bytes. -/
def Lossless (b : Bytes) : Prop :=
  ∃ v, (fallbackStringAdapter b.length).parse b = .ok (v, []) ∧
    (fallbackStringAdapter b.length).build v = .ok b

/-! ## How long a text is in the two encodings -/

def isShorter (c : Char) : Bool := c.toNat < 0x80

def isLonger (c : Char) : Bool := 0x800 ≤ c.toNat ∧ c.toNat < 0x10000

theorem length_chars (c : Char) :
    (utf8.encodeChar c).length + (if isShorter c then 1 else 0) =
      ((utf16 littleEndian).encodeChar c).length + if isLonger c then 1 else 0 := by
  have hscalar := toNat_scalar c
  show (utf8Char c).length + _ = (utf16Char littleEndian c).length + _
  rw [length_utf16Char]
  simp only [utf8Char, units, isShorter, isLonger, decide_eq_true_eq]
  split_ifs <;> simp only [List.length_cons, List.length_nil] <;> omega

theorem length_texts (s : Text) :
    (utf8.encode s).length + s.countP isShorter =
      ((utf16 littleEndian).encode s).length + s.countP isLonger := by
  induction s with
  | nil => rfl
  | cons c s ih =>
    have hc := length_chars c
    simp only [Codec.encode, List.flatMap_cons, List.length_append, List.countP_cons] at ih ⊢
    omega

theorem length_utf8_eq_iff (s : Text) :
    (utf8.encode s).length = ((utf16 littleEndian).encode s).length ↔
      s.countP isShorter = s.countP isLonger := by
  have h := length_texts s
  omega

/-! ## Bytes that come back -/

/-- The bytes are UTF-8, or the little-endian UTF-16 of a text that UTF-8 does not give
the same length. -/
def Recovered (b : Bytes) : Prop :=
  (∃ s, b = utf8.encode s) ∨
    ∃ s, b = (utf16 littleEndian).encode s ∧ s.countP isShorter ≠ s.countP isLonger

theorem reencodes_iff (b : Bytes) : Reencodes b ↔ Recovered b := by
  rw [Reencodes, Recovered]
  cases h8 : utf8.decode b with
  | some s => exact iff_of_true trivial (.inl ⟨s, (utf8.decode_iff b s).mp h8⟩)
  | none =>
    have hnot : ¬ ∃ s, b = utf8.encode s := by
      rintro ⟨s, hs⟩
      exact (utf8.decode_eq_none b).mp h8 s hs
    rw [or_iff_right hnot]
    cases hl : (utf16 littleEndian).decode b with
    | none =>
      refine iff_of_false id ?_
      rintro ⟨s, hs, -⟩
      exact ((utf16 littleEndian).decode_eq_none b).mp hl s hs
    | some s =>
      have hs := ((utf16 littleEndian).decode_iff b s).mp hl
      have hlength :
          (utf8.encode s).length ≠ b.length ↔ s.countP isShorter ≠ s.countP isLonger := by
        rw [hs]
        exact not_congr (length_utf8_eq_iff s)
      simp only [hlength]
      constructor
      · exact fun h => ⟨s, hs, h⟩
      · rintro ⟨t, ht, h⟩
        rwa [Option.some.inj (hl.symm.trans (((utf16 littleEndian).decode_iff b t).mpr ht))]

theorem fallbackDecode_ok (b : Bytes) (h : Reencodes b) : ∃ v, fallbackDecode b = .ok v := by
  rw [Reencodes] at h
  rw [fallbackDecode, encodings, List.findSome?_cons]
  cases h8 : utf8.decode b with
  | some s => exact ⟨.text s, rfl⟩
  | none =>
    simp only [List.findSome?_cons]
    cases hl : (utf16 littleEndian).decode b with
    | some s => exact ⟨.text s, rfl⟩
    | none =>
      rw [h8, hl] at h
      exact h.elim

theorem lossless_iff_reencodes (b : Bytes) : Lossless b ↔ Reencodes b := by
  constructor
  · rintro ⟨v, hparse, hbuild⟩
    obtain ⟨c, hc, hdecode⟩ := (adapt_parse _).mp hparse
    obtain ⟨hb, -⟩ := bytes_parse.mp hc
    rw [List.append_nil] at hb
    subst hb
    obtain ⟨w, hw, hlength, hiff⟩ := fallback_rebuilds b v hdecode
    rw [fallbackStringAdapter, adapt_build _ hw] at hbuild
    have hwb : (bytes b.length).build w = .ok w := if_pos (by rw [hlength])
    rw [hwb] at hbuild
    exact hiff.mp (Except.ok.inj hbuild)
  · intro h
    obtain ⟨v, hv⟩ := fallbackDecode_ok b h
    obtain ⟨w, hw, -, hiff⟩ := fallback_rebuilds b v hv
    rw [hiff.mpr h] at hw
    refine ⟨v, (adapt_parse _).mpr ⟨b, bytes_parse.mpr ⟨(List.append_nil b).symm, rfl⟩, hv⟩, ?_⟩
    rw [fallbackStringAdapter, adapt_build _ hw]
    exact if_pos rfl

theorem lossless_iff (b : Bytes) : Lossless b ↔ Recovered b :=
  (lossless_iff_reencodes b).trans (reencodes_iff b)

/-- One byte that is no text, and two characters that come back as UTF-8. -/
theorem bytes_not_recovered : ¬ Lossless [0xFF] ∧ ¬ Lossless [0x61, 0x00, 0x80, 0x80] := by
  rw [lossless_iff_reencodes, lossless_iff_reencodes]
  constructor
  · have h8 : utf8.decode [0xFF] = none := by decide
    have hl : (utf16 littleEndian).decode [0xFF] = none := by decide
    rw [Reencodes, h8, hl]
    exact id
  · have h8 : utf8.decode [0x61, 0x00, 0x80, 0x80] = none := by decide
    have hl : (utf16 littleEndian).decode [0x61, 0x00, 0x80, 0x80] =
      some ['a', Char.ofNat 0x8080] := by decide
    rw [Reencodes, h8, hl]
    decide

end InVehicle.WlanSsidText
