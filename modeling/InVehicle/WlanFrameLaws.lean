import InVehicle.WlanElementLaws
import InVehicle.WlanFrame

/-!
# Laws of the frame grammar

The two bytes of the frame control hold its fields from the least significant bit
on. The adapters of a frame give back the number or the address they have read.
-/

set_option autoImplicit false

namespace InVehicle.WlanFrameLaws
open InVehicle.Words InVehicle.Formats InVehicle.Formats.Format InVehicle.FormatLaws
open InVehicle.TextCodecs InVehicle.HexText InVehicle.WlanEnums InVehicle.WlanElements
open InVehicle.WlanFrame
open InVehicle.WlanElementLaws

section SwapBits
variable {n v : ℕ}

theorem flipBits_of_lt (hn : 0 < n) (hv : v < 2 ^ n) : flipBits n v = bit.ofLe (bit.be n v) := by
  have hlog : v.log2 + 1 ≤ n := by
    by_cases h : v = 0
    · rw [h]
      exact hn
    · exact (Nat.log2_lt h).mpr hv
  rw [flipBits, max_eq_left hlog, Digit.ofBe, List.reverse_reverse]

theorem flipBits_ofBe (ds : List Bool) (h : 0 < ds.length) :
    flipBits ds.length (bit.ofBe ds) = bit.ofLe ds := by
  rw [flipBits_of_lt h (bit.ofBe_lt ds), bit.be_ofBe]

theorem flipBits_lt (hn : 0 < n) (hv : v < 2 ^ n) : flipBits n v < 2 ^ n := by
  have h := bit.ofLe_lt (bit.be n v)
  rw [bit.length_be] at h
  rw [flipBits_of_lt hn hv]
  exact h

theorem flipBits_flipBits (hn : 0 < n) (hv : v < 2 ^ n) : flipBits n (flipBits n v) = v := by
  have h := bit.le_ofLe (bit.be n v)
  rw [bit.length_be] at h
  rw [flipBits_of_lt hn (flipBits_lt hn hv), flipBits_of_lt hn hv, Digit.be, h, Digit.be,
    List.reverse_reverse, bit.ofLe_le n v hv]

theorem swapBitsAdapter_parse (hn : 0 < n) (s : List Bool) :
    (swapBitsAdapter n).parse (bit.le n v ++ s) = .ok (v % 2 ^ n, s) := by
  have hlen := bit.length_le n v
  refine (map_parse _).mpr ⟨bit.ofBe (bit.le n v), ?_, ?_⟩
  · exact (adapt_parse _).mpr ⟨_, bytes_parse.mpr ⟨rfl, by rw [hlen]⟩, rfl⟩
  · have h := flipBits_ofBe (bit.le n v) (by rwa [hlen])
    rw [hlen, bit.ofLe_le_mod] at h
    exact h

theorem swapBitsAdapter_lt (hn : 0 < n) {b s : List Bool}
    (h : (swapBitsAdapter n).parse b = .ok (v, s)) : v < 2 ^ n := by
  obtain ⟨u, hu, rfl⟩ := (map_parse _).mp h
  exact flipBits_lt hn (be_parse_lt bit n hu)

instance (n : ℕ) : Sized (swapBitsAdapter n) n := sized_map _ _

theorem invertible_swapBitsAdapter (hn : 0 < n) : Invertible (swapBitsAdapter n) := by
  unfold swapBitsAdapter Format.map
  apply invertible_adapt
  rintro b u s v hp ⟨⟩
  rw [flipBits_flipBits hn (be_parse_lt bit n hp)]

instance : Invertible (swapBitsAdapter 2) := invertible_swapBitsAdapter (by omega)
instance : Invertible (swapBitsAdapter 4) := invertible_swapBitsAdapter (by omega)
instance : Invertible (swapBitsAdapter 12) := invertible_swapBitsAdapter (by omega)

instance : Invertible frameType := by
  unfold frameType Format.map
  apply invertible_adapt
  rintro b n s v hp ⟨⟩
  rw [FrameType.encode_decode n (swapBitsAdapter_lt (by omega) hp)]

instance (t : FrameType) : Sized (subtype t) 4 := by
  cases t <;> exact sized_variant _ _

instance (t : FrameType) : Invertible (subtype t) := by
  cases t <;>
  · unfold subtype variant
    apply invertible_adapt
    rintro b n s v hp ⟨⟩
    have hn := swapBitsAdapter_lt (by omega) hp
    simp only [ManagementSubtype.encode_decode n hn, ControlSubtype.encode_decode n hn,
      DataSubtype.encode_decode n hn, ExtensionSubtype.encode_decode n hn]

end SwapBits

section FrameControl

def subtypeOf (n : ℕ) : FrameType → Subtype
  | .management => .management (ManagementSubtype.decode n)
  | .control => .control (ControlSubtype.decode n)
  | .data => .data (DataSubtype.decode n)
  | .extension => .extension (ExtensionSubtype.decode n)

def frameControlOf (x y : UInt8) : FrameControl :=
  let type := FrameType.decode (x.toNat / 4 % 4)
  let flag (i : ℕ) := (byteBits y).getD i false
  ⟨x.toNat % 4, type, subtypeOf (x.toNat / 16) type, flag 0, flag 1, flag 2, flag 3, flag 4,
    flag 5, flag 6, flag 7⟩

instance : Sized frameControlBits (8 * 2) := inferInstance
instance : Invertible (bitStruct true 2 frameControlBits) := invertible_bitStruct inferInstance true
instance : Sized (bitStruct true 2 frameControlBits) 2 := sized_bitStruct inferInstance true
instance : Invertible frameControl := invertible_map fun _ => rfl
instance : Sized frameControl 2 := sized_map _ _

theorem subtype_parse (t : FrameType) (n : ℕ) (hn : n < 16) (s : List Bool) :
    (subtype t).parse (bit.le 4 n ++ s) = .ok (subtypeOf n t, s) := by
  have h := swapBitsAdapter_parse (n := 4) (v := n) (by omega) s
  rw [Nat.mod_eq_of_lt (by omega)] at h
  cases t <;> exact (variant_parse _).mpr ⟨n, h, rfl⟩

theorem byteBits_split (x : UInt8) : byteBits x =
    bit.le 2 x.toNat ++ (bit.le 2 (x.toNat / 4) ++ bit.le 4 (x.toNat / 16)) := by
  have h : bit.le 6 (x.toNat / 4) = bit.le 2 (x.toNat / 4) ++ bit.le 4 (x.toNat / 4 / 4) :=
    bit.le_add 2 4 _
  rw [Nat.div_div_eq_div_mul] at h
  rw [← h]
  exact bit.le_add 2 6 x.toNat

theorem frameControl_parse (x y : UInt8) (s : Bytes) :
    frameControl.parse (x :: y :: s) = .ok (frameControlOf x y, s) := by
  have hx := x.toNat_lt
  have hbits : [x, y].flatMap (unpack true) =
      bit.le 2 x.toNat ++ (bit.le 2 (x.toNat / 4) ++ (bit.le 4 (x.toNat / 16) ++ byteBits y)) := by
    rw [List.flatMap_cons, List.flatMap_cons, List.flatMap_nil, List.append_nil]
    simp only [unpack, if_true, byteBits_split x, List.append_assoc]
  have htype : frameType.parse (bit.le 2 (x.toNat / 4) ++ (bit.le 4 (x.toNat / 16) ++ byteBits y)) =
      .ok (FrameType.decode (x.toNat / 4 % 4), bit.le 4 (x.toNat / 16) ++ byteBits y) :=
    (map_parse _).mpr ⟨_, swapBitsAdapter_parse (by omega) _, rfl⟩
  have hsubtype := subtype_parse (FrameType.decode (x.toNat / 4 % 4)) (x.toNat / 16) (by omega)
    (byteBits y)
  have hparse : frameControlBits.parse ([x, y].flatMap (unpack true)) = .ok
      ((x.toNat % 4, FrameType.decode (x.toNat / 4 % 4),
        subtypeOf (x.toNat / 16) (FrameType.decode (x.toNat / 4 % 4)),
        (byteBits y).getD 0 false, (byteBits y).getD 1 false, (byteBits y).getD 2 false,
        (byteBits y).getD 3 false, (byteBits y).getD 4 false, (byteBits y).getD 5 false,
        (byteBits y).getD 6 false, (byteBits y).getD 7 false), []) := by
    rw [hbits]
    refine (seq_parse _ _).mpr ⟨_, swapBitsAdapter_parse (by omega) _, ?_⟩
    refine (seq_parse _ _).mpr ⟨_, htype, ?_⟩
    exact (seq_parse _ _).mpr ⟨_, hsubtype, rfl⟩
  have hall := congrArg (Except.map Prod.fst) hparse
  exact (map_parse _).mpr ⟨_, bitStruct_parse (u := [x, y]) rfl hall, rfl⟩

end FrameControl

section Address

theorem hexOctet_hexByte (n : ℕ) (h : n < 256) : hexOctet (hexByte n) = .ok n := by
  have hall : ∀ n : Fin 256, (hexOctet (hexByte n)).toOption = some n.val := by decide +kernel
  have hn := hall ⟨n, h⟩
  cases ho : hexOctet (hexByte n) with
  | error e => simp [ho, Except.toOption] at hn
  | ok m => simpa [ho, Except.toOption] using hn

theorem colon_notMem_hexByte (n : ℕ) (h : n < 256) : ':' ∉ hexByte n := by
  have hall : ∀ n : Fin 256, ':' ∉ hexByte n := by decide +kernel
  exact hall ⟨n, h⟩

theorem mapM_hexOctet (obj : List ℕ) (h : ∀ n ∈ obj, n < 256) :
    (obj.map hexByte).mapM hexOctet = .ok obj := by
  induction obj with
  | nil => rfl
  | cons n obj ih =>
    obtain ⟨hn, hobj⟩ := List.forall_mem_cons.mp h
    rw [List.map_cons, List.mapM_cons, hexOctet_hexByte n hn, ih hobj]
    rfl

theorem macEncode_macDecode (obj : List ℕ) (hne : obj ≠ []) (h : ∀ n ∈ obj, n < 256) :
    macEncode (macDecode obj) = .ok obj := by
  have hcolon : ∀ t ∈ obj.map hexByte, ':' ∉ t := by
    intro t ht
    obtain ⟨n, hn, rfl⟩ := List.mem_map.mp ht
    exact colon_notMem_hexByte n (h n hn)
  rw [macEncode, macDecode, List.splitOn_intercalate ':' hcolon (by simpa using hne)]
  exact mapM_hexOctet obj h

instance : Sized (array 6 byteField) 6 := sized_array (m := 1) 6
instance : Sized addressField 6 := sized_adapt fun _ => ⟨_, rfl⟩

instance : Invertible addressField := by
  unfold addressField
  apply invertible_adapt
  rintro b obj s v hp ⟨⟩
  obtain ⟨hlen, hall⟩ := times_parse (p := (· < 256)) (fun _ _ _ => be_parse_lt byte 1) 6 b obj s hp
  exact macEncode_macDecode obj (by rintro rfl; cases hlen) hall

end Address

section Body

instance : Sized capabilityInfo 2 := by
  have := sized_bitStruct (f := capabilityBits) (n := 2) inferInstance true
  exact sized_map _ _

instance : Sized qosControlBits (8 * 2) := inferInstance
instance : Sized sequenceControlBits (8 * 2) := inferInstance
instance : Sized (bitStruct false 2 qosControlBits) 2 := sized_bitStruct inferInstance false
instance : Invertible (bitStruct false 2 qosControlBits) := invertible_bitStruct inferInstance false
instance : Sized qosControl 2 := sized_map _ _
instance : Invertible qosControl := invertible_map fun _ => rfl
instance : Sized sequenceControl 2 := sized_bitStruct inferInstance true
instance : Invertible sequenceControl := invertible_bitStruct inferInstance true

/-- How many bytes the header of a data frame takes. -/
def headerLength (fc : FrameControl) (s : DataSubtype) : ℕ :=
  (if fc.toDs && fc.fromDs then 6 else 0) +
    ((if hasQoSControl s then 2 else 0) + if fc.orderOrPHTC then 4 else 0)

instance (fc : FrameControl) (s : DataSubtype) :
    Sized (dataFrameHeader fc s) (headerLength fc s) := sized_map _ _

instance (fc : FrameControl) (s : DataSubtype) : Invertible (dataFrameHeader fc s) :=
  invertible_map fun _ => rfl

instance : Invertible vendorSpecificElement := invertible_map fun _ => rfl

theorem consumes_vendorSpecificElement : Consumes vendorSpecificElement :=
  consumes_map (consumes_seq Nat.one_pos) _ _

end Body

end InVehicle.WlanFrameLaws
