import InVehicle.FormatRanges
import InVehicle.WlanElementLaws

/-!
# Framing of the information elements

Elements written one after the other are read back one by one exactly if each of
them has a content that the grammar of its id takes whole.
-/

set_option autoImplicit false

namespace InVehicle.WlanFraming
open InVehicle.Words InVehicle.Formats InVehicle.Formats.Format InVehicle.FormatLaws
open InVehicle.FormatRanges InVehicle.WlanEnums InVehicle.WlanElements InVehicle.WlanElementLaws

def countOf (c : Bool) (b : Bytes) : ℕ := if c then byte.ofLe (b.take 2) else 0

def countSize (c : Bool) : ℕ := if c then 2 else 0

theorem countIf_parse (c : Bool) (b s : Bytes) (n : ℕ) : (countIf c).parse b = .ok (n, s) ↔
    countSize c ≤ b.length ∧ n = countOf c b ∧ s = b.drop (countSize c) := by
  cases c with
  | false =>
    simp only [countIf, const, countSize, countOf, if_false, Bool.false_eq_true]
    simp [eq_comm]
  | true => exact le_parse_iff byte 2

theorem whole_count {α : Type} (c : Bool) (g : ℕ → Format UInt8 α) (b : Bytes) :
    Whole ((countIf c).seq g) b ↔
      countSize c ≤ b.length ∧ Whole (g (countOf c b)) (b.drop (countSize c)) := by
  simp only [Whole, Prod.exists, seq_parse, countIf_parse]
  constructor
  · rintro ⟨n, x, s, ⟨hlen, rfl, rfl⟩, h⟩
    exact ⟨hlen, x, h⟩
  · rintro ⟨hlen, x, h⟩
    exact ⟨_, x, _, ⟨hlen, rfl, rfl⟩, h⟩

def rsnLength (c : Bytes) : ℕ :=
  let n := c.length
  let k := countOf (8 ≤ n) (c.drop 6)
  let pairwise := 6 + countSize (8 ≤ n) + k * 4
  let m := countOf (10 + k * 4 ≤ n) (c.drop pairwise)
  let akm := pairwise + countSize (10 + k * 4 ≤ n) + m * 4
  let capabilities := akm + countSize (12 + k * 4 + m * 4 ≤ n)
  let p := countOf (14 + k * 4 + m * 4 ≤ n) (c.drop capabilities)
  let pmkid := capabilities + countSize (14 + k * 4 + m * 4 ≤ n) + p * 16
  pmkid + if 18 + k * 4 + m * 4 + p * 16 ≤ n then 4 else 0

instance : Sized (bitStruct false 2 rsnCapabilityBits) 2 := sized_bitStruct inferInstance false
instance : Sized rsnCapabilities 2 := sized_map _ _
instance : Sized (bytes 16 : Format UInt8 Bytes) 16 := sized_bytes 16

theorem whole_rsnElement (c : Bytes) : Whole (rsnElement c.length) c ↔ rsnLength c = c.length := by
  simp only [rsnElement, whole_map, whole_pair, whole_count, List.length_drop, List.drop_drop]
  rw [whole_sized, List.length_drop]
  simp only [rsnLength, countSize, decide_eq_true_eq, Nat.reduceAdd]
  omega

/-- Some encoding of the adapter accepts the bytes. -/
def Decodable (c : Bytes) : Prop := (encodings.findSome? fun encoding => encoding.decode c).isSome

instance (c : Bytes) : Decidable (Decodable c) := inferInstanceAs (Decidable (_ = true))

def InfoFits (id : IEType) (c : Bytes) : Prop :=
  match id with
  | .ssid => Decodable c
  | .fhParameterSet => c.length = 5
  | .dsParameterSet => c.length = 1
  | .cfParameterSet => c.length = 6
  | .ibssParameterSet => c.length = 2
  | .country => 3 ≤ c.length ∧ c.length % 3 = 0
  | .request => False
  | .bssLoad => c.length = 5
  | .rsn => rsnLength c = c.length
  | .rsni => c.length = 1
  | .rsnExtension => False
  | .vendorSpecific =>
    3 ≤ c.length ∧ (VendorOui.decode (byte.ofBe (c.take 3)) = .microsoftCorp → 4 ≤ c.length)
  | _ => True

theorem whole_ssidElement (c : Bytes) : Whole (ssidElement c.length) c ↔ Decodable c := by
  rw [ssidElement, whole_variant]
  simp only [Whole, fallbackStringAdapter, adapt_parse, bytes_parse, List.append_nil]
  constructor
  · rintro ⟨v, _, ⟨rfl, -⟩, hd⟩
    simp only [fallbackDecode] at hd
    split at hd
    · next s hs => simp [Decodable, hs]
    · cases hd
  · intro h
    obtain ⟨s, hs⟩ := Option.isSome_iff_exists.mp h
    exact ⟨.text s, c, ⟨rfl, rfl⟩, by simp only [fallbackDecode, hs]⟩

instance : Sized rateAdapter 1 := sized_map _ _
instance : Sized (bytes 3 : Format UInt8 Bytes) 3 := sized_bytes 3
instance : Sized vendorOui 3 := sized_map _ _
instance : Sized microsoftSpecificElementType 1 := sized_map _ _

theorem whole_supportedRatesElement (c : Bytes) : Whole (supportedRatesElement c.length) c := by
  rw [supportedRatesElement, whole_variant, whole_sized, Nat.mul_one]

theorem whole_countryElement (c : Bytes) :
    Whole (countryElement c.length) c ↔ 3 ≤ c.length ∧ c.length % 3 = 0 := by
  rw [countryElement, whole_variant, whole_pair]
  apply and_congr_right
  intro h
  have hcount : ((c.length : ℤ) - 3) / 3 = ((c.length - 3) / 3 : ℕ) := by omega
  rw [hcount, whole_sized, List.length_drop]
  omega

theorem vendorOui_parse (c s : Bytes) (oui : VendorOui) : vendorOui.parse c = .ok (oui, s) ↔
    3 ≤ c.length ∧ oui = VendorOui.decode (byte.ofBe (c.take 3)) ∧ s = c.drop 3 := by
  simp only [vendorOui, map_parse, be_parse_iff]
  constructor
  · rintro ⟨n, ⟨hlen, rfl, rfl⟩, rfl⟩
    exact ⟨hlen, rfl, rfl⟩
  · rintro ⟨hlen, rfl, rfl⟩
    exact ⟨_, ⟨hlen, rfl, rfl⟩, rfl⟩

theorem whole_vendorSpecificContent (oui : VendorOui) (c : Bytes) (len : ℕ)
    (hlen : len = c.length + 3) :
    Whole (vendorSpecificContent len oui) c ↔ (oui = .microsoftCorp → 4 ≤ len) := by
  unfold vendorSpecificContent
  split_ifs with h
  · rw [whole_variant, whole_pair, whole_bytes, List.length_drop]
    simp only [h, true_imp_iff]
    omega
  · rw [whole_variant, whole_bytes]
    simp only [h, false_imp_iff, iff_true]
    omega

theorem whole_vendorSpecificElement (c : Bytes) : Whole (vendorSpecificElement c.length) c ↔
    3 ≤ c.length ∧ (VendorOui.decode (byte.ofBe (c.take 3)) = .microsoftCorp → 4 ≤ c.length) := by
  rw [vendorSpecificElement, whole_variant]
  simp only [Whole, Prod.exists, seq_parse, vendorOui_parse]
  constructor
  · rintro ⟨oui, x, s, ⟨hlen, rfl, rfl⟩, h⟩
    refine ⟨hlen, (whole_vendorSpecificContent _ (c.drop 3) _ ?_).mp ⟨x, h⟩⟩
    rw [List.length_drop]
    omega
  · rintro ⟨hlen, h⟩
    obtain ⟨x, hx⟩ := (whole_vendorSpecificContent _ (c.drop 3) c.length (by
      rw [List.length_drop]
      omega)).mpr h
    exact ⟨_, x, _, ⟨hlen, rfl, rfl⟩, hx⟩

theorem whole_fail (e : Failure) (c : Bytes) : ¬ Whole (fail e : Format UInt8 Info) c := by
  rintro ⟨a, ⟨⟩⟩

theorem whole_bytesInfo (c : Bytes) : Whole (bytesInfo c.length) c := by
  rw [bytesInfo, whole_variant, whole_bytes]

theorem whole_ieElements (id : IEType) (c : Bytes) :
    Whole (ieElements id c.length) c ↔ InfoFits id c := by
  unfold ieElements InfoFits
  cases id with
  | ssid => exact whole_ssidElement c
  | supportedRates | extendedSupportedRates =>
    exact iff_of_true (whole_supportedRatesElement c) trivial
  | country => exact whole_countryElement c
  | request | rsnExtension => exact iff_of_false (whole_fail _ c) id
  | rsn => exact (whole_variant _ _ c).trans (whole_rsnElement c)
  | vendorSpecific => exact whole_vendorSpecificElement c
  | fhParameterSet | dsParameterSet | cfParameterSet | ibssParameterSet | bssLoad | rsni =>
    exact (whole_variant _ _ c).trans (whole_sized c)
  | _ => exact iff_of_true (whole_bytesInfo c) trivial

/-- An element as it is sent: an element of the extended kind has its id
extension in front of the content proper. -/
structure Element where
  id : UInt8
  content : Bytes
  length_lt : content.length < 256
  extended : id = 255 → content ≠ []

def Element.encode (e : Element) : Bytes := e.id :: UInt8.ofNat e.content.length :: e.content

def Element.header (e : Element) : IEType × ℕ := (IEType.decode e.id.toNat, e.content.length)

def Element.Fits (e : Element) : Prop :=
  e.content = [] ∨ InfoFits (IEType.decode e.id.toNat) e.content

/-- One parsed element for each element sent, with its id and length and out of
its bytes, and no byte is left over. -/
def Framed (es : List Element) : Prop :=
  ∃ vs, informationElements.parse (es.flatMap Element.encode) = .ok (vs, []) ∧
    (informationElement.range (es.flatMap Element.encode)).1 = (es.map Element.encode).zip vs ∧
    vs.map (fun v => (v.id, v.len)) = es.map Element.header

theorem decode_eq_extendedId (n : ℕ) : IEType.decode n = .extendedId ↔ n = 255 :=
  decode_iff IEType.encode_decode rfl n

theorem informationElement_parse (x y : UInt8) (c s : Bytes) (v : InformationElement) :
    informationElement.parse (x :: y :: c) = .ok (v, s) ↔ ∃ t,
      ((optional (IEType.decode x.toNat = .extendedId) byteField).pair <|
        optional (0 < y.toNat) (if IEType.decode x.toNat = .extendedId then bytesInfo (y.toNat - 1)
          else ieElements (IEType.decode x.toNat) y.toNat)).parse c = .ok (t, s) ∧
      v = ⟨IEType.decode x.toNat, y.toNat, t.1, t.2⟩ := by
  rw [informationElement, map_parse]
  constructor
  · rintro ⟨⟨id, len, t⟩, h, rfl⟩
    obtain ⟨s', hid, h⟩ := (seq_parse _ _).mp h
    rw [ieType_parse] at hid
    cases hid
    obtain ⟨s', hlen, h⟩ := (seq_parse _ _).mp h
    rw [byteField_parse] at hlen
    cases hlen
    exact ⟨t, h, rfl⟩
  · rintro ⟨t, h, rfl⟩
    refine ⟨(IEType.decode x.toNat, y.toNat, t), ?_, rfl⟩
    refine (seq_parse _ _).mpr ⟨_, ieType_parse x _, ?_⟩
    exact (seq_parse _ _).mpr ⟨_, byteField_parse y c, h⟩

theorem whole_optional {α : Type} (f : Format UInt8 α) (c : Bytes) :
    Whole (optional (0 < c.length) f) c ↔ c = [] ∨ Whole f c := by
  cases c with
  | nil => exact iff_of_true ⟨none, rfl⟩ (.inl rfl)
  | cons x c =>
    rw [decide_eq_true (by simp), optional_true, whole_variant]
    simp

theorem Element.whole_encode (e : Element) : Whole informationElement e.encode ↔ e.Fits := by
  simp only [Whole, encode, informationElement_parse, toNat_ofNat_length e.length_lt]
  rw [exists_comm]
  simp only [exists_and_left, exists_eq, and_true]
  refine (whole_pair e.content).trans ?_
  by_cases hid : IEType.decode e.id.toNat = .extendedId
  · have hne := e.extended (UInt8.toNat_inj.mp ((decode_eq_extendedId _).mp hid))
    have hpos := List.length_pos_iff.mpr hne
    have hfits : InfoFits (IEType.decode e.id.toNat) e.content := by
      rw [hid]
      trivial
    refine iff_of_true ⟨by simpa [hid] using Nat.succ_le_of_lt hpos, ?_⟩ (.inr hfits)
    rw [decide_eq_true hpos, optional_true, whole_variant, if_pos hid, bytesInfo, whole_variant,
      whole_bytes, if_pos (decide_eq_true hid), List.length_drop]
    omega
  · simp only [hid, decide_false, Bool.false_eq_true, if_false, Nat.zero_le, true_and,
      List.drop_zero]
    rw [whole_optional, whole_ieElements]
    rfl

theorem Element.parse_encode (e : Element) (h : e.Fits) (r : Bytes) :
    ∃ v, informationElement.parse (e.encode ++ r) = .ok (v, r) ∧ (v.id, v.len) = e.header := by
  obtain ⟨v, hv⟩ := e.whole_encode.mpr h
  obtain ⟨u, hu, hlocal⟩ := Local.taken _ v [] hv
  rw [List.append_nil] at hu
  refine ⟨v, hu ▸ hlocal r, ?_⟩
  obtain ⟨t, -, rfl⟩ := (informationElement_parse _ _ _ _ _).mp hv
  rw [header, toNat_ofNat_length e.length_lt]

theorem fits_framed (es : List Element) (h : ∀ e ∈ es, e.Fits) : Framed es := by
  induction es with
  | nil => exact ⟨[], rfl, rfl, rfl⟩
  | cons e es ih =>
    obtain ⟨he, hes⟩ := List.forall_mem_cons.mp h
    obtain ⟨vs, hparse, hpieces, hvs⟩ := ih hes
    obtain ⟨v, hv, hheader⟩ := e.parse_encode he (es.flatMap Element.encode)
    have hrange := range_front consumes_informationElement (t := es.flatMap Element.encode) hv
    simp only [informationElements, greedyRange, Except.ok.injEq, Prod.mk.injEq] at hparse
    refine ⟨v :: vs, ?_, ?_, by rw [List.map_cons, List.map_cons, hheader, hvs]⟩
    · simp only [informationElements, greedyRange, List.flatMap_cons, hrange, List.map_cons, hparse]
    · rw [List.flatMap_cons, hrange, hpieces]
      rfl

theorem framed_fits (es : List Element) (h : Framed es) : ∀ e ∈ es, e.Fits := by
  induction es with
  | nil => simp
  | cons e es ih =>
    obtain ⟨vs, hparse, hpieces, hvs⟩ := h
    cases vs with
    | nil => cases hvs
    | cons v vs =>
      obtain ⟨s, hv, hb, hrange⟩ := range_cons consumes_informationElement hpieces
      have hs : es.flatMap Element.encode = s := List.append_cancel_left hb
      subst hs
      simp only [informationElements, greedyRange, Except.ok.injEq, Prod.mk.injEq] at hparse
      refine List.forall_mem_cons.mpr ⟨?_, ih ⟨vs, ?_, by rw [hrange]; rfl, (List.cons.inj hvs).2⟩⟩
      · obtain ⟨u, hu, hlocal⟩ := Local.taken _ v _ hv
        have hu := List.append_cancel_right hu
        refine e.whole_encode.mp ⟨v, ?_⟩
        rw [hu, ← List.append_nil u, hlocal]
      · have hlen := congrArg List.length (List.cons.inj hvs).2
        simp only [List.length_map] at hlen
        have hzip : ((es.map Element.encode).zip vs).map Prod.snd = vs :=
          List.map_snd_zip (by simp [hlen])
        simp only [informationElements, greedyRange, hrange, hparse.2]
        exact congrArg (fun ws => Except.ok (ws, [])) hzip

/-- Exactly the elements that fit keep their frame. -/
theorem framing_iff (es : List Element) : Framed es ↔ ∀ e ∈ es, e.Fits :=
  ⟨framed_fits es, fits_framed es⟩

/-- A country element padded to an even length, and a channel after it: the pad
is taken for the id of the next element. -/
theorem padding_shifts : ¬ Framed
    [⟨7, [85, 83, 32, 1, 11, 20, 36, 4, 23, 0], by decide, by decide⟩,
      ⟨3, [6], by decide, by decide⟩] := by
  rintro ⟨vs, hparse, -⟩
  have hrest := congrArg (Except.map Prod.snd) hparse
  revert hrest
  simp only [Except.map]
  decide +kernel

end InVehicle.WlanFraming
