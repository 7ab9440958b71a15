import InVehicle.WlanElements

/-!
# Laws of the information elements

What an element is read from depends on nothing behind it. It is written back as
it was read, except that an SSID may come back in another encoding.
-/

set_option autoImplicit false

namespace InVehicle.WlanElementLaws
open InVehicle.Words InVehicle.Formats InVehicle.Formats.Format InVehicle.FormatLaws
open InVehicle.TextCodecs InVehicle.WlanEnums InVehicle.WlanElements

section Local

instance : Local rateAdapter := local_map _ _
instance : Local capabilityInfo := local_map _ _
instance : Local rsnCapabilities := local_map _ _
instance (c : Bool) : Local (countIf c) := local_ite _
instance (len : ℕ) : Local (rsnElement len) := local_map _ _
instance (len : ℕ) (oui : VendorOui) : Local (vendorSpecificContent len oui) := local_ite _
instance (n : ℤ) : Local (bytesInfo n) := local_variant _ _
instance (len : ℕ) : Local (fallbackStringAdapter len) := local_adapt _ _

instance local_ieElements (id : IEType) (len : ℕ) : Local (ieElements id len) := by
  unfold ieElements
  split <;> first | exact local_fail _ | exact local_variant _ _

instance : Local informationElement := local_map _ _

theorem consumes_informationElement : Consumes informationElement :=
  consumes_map (consumes_seq Nat.one_pos) _ _

end Local

section Invertible

instance : Invertible ieType := invertible_map IEType.encode_decode
instance : Invertible vendorOui := invertible_map VendorOui.encode_decode
instance : Invertible akmSuites := invertible_map AKMSuites.encode_decode
instance : Invertible rsnCipherSuites := invertible_map RSNCipherSuites.encode_decode
instance : Invertible microsoftSpecificElementType :=
  invertible_map MicrosoftSpecificElementType.encode_decode

instance : Sized capabilityBits (8 * 2) := inferInstance
instance : Sized rsnCapabilityBits (8 * 2) := inferInstance

instance : Invertible (bitStruct true 2 capabilityBits) := invertible_bitStruct inferInstance true

instance : Invertible capabilityInfo := invertible_map fun _ => rfl

instance : Invertible (bitStruct false 2 rsnCapabilityBits) :=
  invertible_bitStruct inferInstance false

instance : Invertible rsnCapabilities := invertible_map fun _ => rfl

instance (c : Bool) : Invertible (countIf c) := invertible_ite _
instance (len : ℕ) : Invertible (rsnElement len) := invertible_map fun _ => rfl

instance (len : ℕ) (oui : VendorOui) : Invertible (vendorSpecificContent len oui) := by
  unfold vendorSpecificContent
  split_ifs
  · exact invertible_variant fun _ => rfl
  · exact invertible_variant fun _ => rfl

instance (n : ℤ) : Invertible (bytesInfo n) := invertible_variant fun _ => rfl

theorem rateEncode_decode (obj : ℕ) (h : obj < 256) : rateEncode (rateDecode obj) = obj := by
  have hbits : ∀ n : Fin 256, (if n.val &&& 0x80 ≠ 0 then (n.val &&& 0x7F) ||| 0x80
      else n.val &&& 0x7F) = n := by decide +kernel
  have hrate : ⌊(rateDecode obj).1 * 2⌋.toNat = obj &&& 0x7F := by
    rw [rateDecode, div_mul_cancel₀ _ (by norm_num), Int.floor_natCast, Int.toNat_natCast]
  rw [rateEncode, hrate]
  simpa [rateDecode] using hbits ⟨obj, h⟩

instance : Invertible rateAdapter := by
  unfold rateAdapter Format.map
  apply invertible_adapt
  rintro b n s v hp ⟨⟩
  rw [rateEncode_decode n (be_parse_lt byte 1 hp)]

theorem invertible_ieElements (id : IEType) (len : ℕ) (h : id ≠ .ssid) :
    Invertible (ieElements id len) := by
  unfold ieElements
  split <;>
    first | exact absurd rfl h | exact invertible_fail _ | exact invertible_variant fun _ => rfl

end Invertible

section Ssid

def Reencodes (c : Bytes) : Prop :=
  match utf8.decode c, (utf16 littleEndian).decode c with
  | some _, _ => True
  | none, some s => (utf8.encode s).length ≠ c.length
  | none, none => False

theorem fallbackEncode_text (s : Text) (n : ℕ) (h : ((utf16 littleEndian).encode s).length = n) :
    fallbackEncode n (.text s) = .ok (if (utf8.encode s).length = n then utf8.encode s
      else (utf16 littleEndian).encode s) := by
  by_cases hn : (utf8.encode s).length = n
  · simp [fallbackEncode, encodings, hn]
  · simp [fallbackEncode, encodings, hn, h]

theorem fallback_rebuilds (c : Bytes) (v : Ssid) (h : fallbackDecode c = .ok v) :
    ∃ w, fallbackEncode c.length v = .ok w ∧ w.length = c.length ∧ (w = c ↔ Reencodes c) := by
  cases h8 : utf8.decode c with
  | some s =>
    have hc := (utf8.decode_iff c s).mp h8
    simp only [fallbackDecode, encodings, List.findSome?_cons, h8] at h
    cases h
    refine ⟨c, ?_, rfl, by simp [Reencodes, h8]⟩
    simp [fallbackEncode, encodings, ← hc]
  | none =>
    have hne : ∀ s, utf8.encode s ≠ c := fun s hs => (utf8.decode_eq_none c).mp h8 s hs.symm
    cases hl : (utf16 littleEndian).decode c with
    | some s =>
      have hc := ((utf16 littleEndian).decode_iff c s).mp hl
      simp only [fallbackDecode, encodings, List.findSome?_cons, h8, hl] at h
      cases h
      rw [fallbackEncode_text s c.length (by rw [hc])]
      refine ⟨_, rfl, ?_⟩
      by_cases hn : (utf8.encode s).length = c.length
      · simp [Reencodes, h8, hl, hn, hne]
      · simp [Reencodes, h8, hl, hn, ← hc]
    | none =>
      have hne' : ∀ s, (utf16 littleEndian).encode s ≠ c :=
        fun s hs => ((utf16 littleEndian).decode_eq_none c).mp hl s hs.symm
      cases hb : (utf16 bigEndian).decode c with
      | none => simp [fallbackDecode, encodings, h8, hl, hb] at h
      | some s =>
        have hc := ((utf16 bigEndian).decode_iff c s).mp hb
        have hlen := (length_utf16 littleEndian bigEndian s).trans (congrArg List.length hc).symm
        simp only [fallbackDecode, encodings, List.findSome?_cons, h8, hl, hb] at h
        cases h
        rw [fallbackEncode_text s c.length hlen]
        refine ⟨_, rfl, ?_⟩
        by_cases hn : (utf8.encode s).length = c.length
        · simp [Reencodes, h8, hl, hn, hne]
        · simp [Reencodes, h8, hl, hn, hne', hlen]

theorem ssidElement_rebuilds (len : ℕ) : Rebuilds (ssidElement len) Reencodes := by
  refine rebuilds_variant (fun b v s hv => ?_) fun _ => rfl
  obtain ⟨c, hc, hd⟩ := (adapt_parse _).mp hv
  obtain ⟨hb, hlen⟩ := bytes_parse.mp hc
  obtain ⟨w, hw, hwlen, hiff⟩ := fallback_rebuilds c v hd
  have hn : c.length = len := by omega
  rw [hn] at hw
  refine ⟨c, w, hb, ?_, hwlen, hiff⟩
  rw [fallbackStringAdapter, adapt_build _ hw]
  exact if_pos (by omega)

abbrev elementTail (id : IEType) :=
  byteField.seq fun len => (optional (id = .extendedId) byteField).pair <|
    optional (0 < len) (if id = .extendedId then bytesInfo (len - 1) else ieElements id len)

theorem invertible_elementTail (id : IEType) (h : id ≠ .ssid) : Invertible (elementTail id) := by
  have := fun len => invertible_ieElements id len h
  infer_instance

theorem elementTail_ssid : Rebuilds (elementTail .ssid) fun u => Reencodes (u.drop 1) := by
  refine rebuilds_seq fun len => ?_
  have hinfo : Rebuilds (optional (0 < len) (ssidElement len)) Reencodes := by
    by_cases hn : 0 < len
    · rw [decide_eq_true hn]
      exact rebuilds_variant (ssidElement_rebuilds len) fun _ => rfl
    · rw [decide_eq_false hn]
      rintro b i s ⟨⟩
      exact ⟨[], [], rfl, rfl, rfl, iff_of_true rfl trivial⟩
  exact rebuilds_seq (f := const none) fun _ => hinfo

theorem byteField_parse (x : UInt8) (s : Bytes) : byteField.parse (x :: s) = .ok (x.toNat, s) := by
  refine (adapt_parse _).mpr ⟨[x], bytes_parse.mpr ⟨rfl, rfl⟩, ?_⟩
  simp [Digit.ofBe, byte]

theorem ieType_parse (x : UInt8) (s : Bytes) :
    ieType.parse (x :: s) = .ok (IEType.decode x.toNat, s) :=
  (map_parse _).mpr ⟨x.toNat, byteField_parse x s, rfl⟩

theorem decode_eq_ssid (n : ℕ) : IEType.decode n = .ssid ↔ n = 0 :=
  decode_iff IEType.encode_decode rfl n

/-- The tokens of an element that is no SSID, or whose text comes back in the
encoding it was in. -/
def Kept (u : Bytes) : Prop := u.head? = some 0 → Reencodes (u.drop 2)

theorem informationElement_rebuilds : Rebuilds informationElement Kept := by
  intro b e s h
  obtain ⟨⟨id, x⟩, hp, rfl⟩ := (map_parse _).mp h
  obtain ⟨t, hid, htail⟩ := (seq_parse _ _).mp hp
  obtain ⟨u, hu, hbuild⟩ := Invertible.written b id t hid
  obtain ⟨y, rfl⟩ := List.length_eq_one_iff.mp (sized_taken hid hu)
  have hy : id = IEType.decode y.toNat := by
    rw [hu, List.singleton_append, ieType_parse] at hid
    exact ((Prod.mk.inj (Except.ok.inj hid)).1).symm
  by_cases hs : id = .ssid
  · have hzero : y = 0 := UInt8.toNat_inj.mp ((decode_eq_ssid _).mp (hy.symm.trans hs))
    subst hs hzero
    obtain ⟨u', w', hu', hbuild', hlen, hiff⟩ := elementTail_ssid t x s htail
    refine ⟨0 :: u', 0 :: w', by rw [hu, hu']; rfl, ?_, by simp [hlen], ?_⟩
    · exact seq_build ieType elementTail hbuild hbuild'
    · simp [Kept, hiff]
  · have hne : y ≠ 0 := by
      rintro rfl
      exact hs hy
    obtain ⟨u', hu', hbuild'⟩ := (invertible_elementTail id hs).written t x s htail
    refine ⟨y :: u', y :: u', by rw [hu, hu']; rfl, ?_, rfl, ?_⟩
    · exact seq_build ieType elementTail hbuild hbuild'
    · simp [Kept, hne]

end Ssid

end InVehicle.WlanElementLaws
