import InVehicle.WlanSsid

/-!
# The name of a network

`WiFiPacket.ssid` is the name in the first SSID element that is read, and the text is
the one that the first encoding gives which takes the bytes.
-/

set_option autoImplicit false

namespace InVehicle.WlanNetworkName
open InVehicle.TextCodecs InVehicle.Words InVehicle.Formats InVehicle.Formats.Format
open InVehicle.FormatLaws
open InVehicle.FormatRanges InVehicle.WlanEnums InVehicle.WlanElements InVehicle.WlanElementLaws
open InVehicle.WlanFraming InVehicle.WlanSecurity InVehicle.WlanBeacon InVehicle.WlanPieces
open InVehicle.WlanSsid

/-- `getattr(ssid_element.info, "ssid", "")` -/
def ssidAttribute (e : InformationElement) : Ssid :=
  match e.info with
  | some (.ssid ssid) => ssid
  | _ => .text []

/-- A list of elements has no `info`. -/
def WiFiPacket.ssid (p : WiFiPacket) : Except Failure (Option Ssid) :=
  match p.elements .ssid with
  | some (.single e) => .ok (some (ssidAttribute e))
  | some (.repeated _) => .error .attributeError
  | none => .ok none

/-- `ssid` of the packet of these bytes. -/
def ssidOf (packetData : Bytes) : Except Failure (Option Ssid) := do
  let p ← init packetData
  WiFiPacket.ssid p

/-! ## The first element of a kind -/

theorem addElement_single {k : IEType} (hk : k ∉ repeatingElementTypes) (t : Elements)
    (e : InformationElement) :
    addElement t e k = (t k).or (if e.id = k then some (.single e) else none) := by
  by_cases h : e.id = k
  · subst h
    cases ht : t e.id with
    | none => simp [addElement, hk, ht]
    | some x => simp [addElement, hk, ht]
  · rw [addElement_other t e _ h, if_neg h, Option.or_none]

theorem fold_single {k : IEType} (hk : k ∉ repeatingElementTypes)
    (es : List InformationElement) (t : Elements) :
    (es.foldl addElement t) k = (t k).or ((es.find? fun e => e.id = k).map .single) := by
  induction es generalizing t with
  | nil => simp
  | cons e es ih =>
    rw [List.foldl_cons, ih, addElement_single hk, Option.or_assoc]
    by_cases h : e.id = k
    · simp [h]
    · simp [h]

theorem ssidOf_frame (h : Beacon) (elements : Bytes) :
    ssidOf (h.frame elements) = .ok ((((informationElement.range elements).1.map Prod.snd).find?
      fun e => e.id = .ssid).map ssidAttribute) := by
  obtain ⟨v, hv, a, b, cap, -, hbody⟩ := h.frame_parse elements
  have hinit : init (h.frame elements) = .ok ⟨v, parseIeElements v⟩ :=
    init_eq_ok.mpr ⟨v, [], hv, rfl⟩
  have hfirst : parseIeElements v .ssid = (((informationElement.range elements).1.map
      Prod.snd).find? fun e => e.id = .ssid).map .single := by
    rw [parseIeElements, hbody]
    exact fold_single (by decide) _ _
  rw [ssidOf, hinit]
  show WiFiPacket.ssid _ = _
  simp only [WiFiPacket.ssid, hfirst]
  cases ((informationElement.range elements).1.map Prod.snd).find? fun e => e.id = .ssid with
  | none => rfl
  | some e => rfl

/-! ## The text of an element -/

def nameText (c : Bytes) : Option Text := encodings.findSome? fun encoding => encoding.decode c

theorem ssidElement_text {c s : Bytes} {i : Info} (rest : Bytes)
    (h : (ssidElement c.length).parse (c ++ rest) = .ok (i, s)) :
    ∃ t, nameText c = some t ∧ i = .ssid (.text t) ∧ s = rest := by
  obtain ⟨ssid, hs, rfl⟩ := (variant_parse _).mp h
  obtain ⟨u, hu, hd⟩ := (adapt_parse _).mp hs
  obtain ⟨hsplit, hulen⟩ := bytes_parse.mp hu
  obtain ⟨rfl, rfl⟩ := List.append_inj hsplit (by omega)
  rw [fallbackDecode] at hd
  cases hname : encodings.findSome? fun encoding => encoding.decode c with
  | none =>
    rw [hname] at hd
    cases hd
  | some t =>
    rw [hname] at hd
    exact ⟨t, hname, by rw [← Except.ok.inj hd], rfl⟩

abbrev Name := {c : Bytes // c.length < 256}

/-- An element of another kind that the grammar parses whole, in its bytes. -/
abbrev OtherElement := {p : Bytes // Whole informationElement p ∧ p.head? ≠ some 0}

theorem ssidElement_read (c : Name) (rest : Bytes) {v : InformationElement} {s : Bytes}
    (h : informationElement.parse (ssidBytes c ++ rest) = .ok (v, s)) :
    v.id = .ssid ∧ s = rest ∧ ∃ t, nameText c = some t ∧ ssidAttribute v = .text t := by
  obtain ⟨⟨extension, info⟩, ht, rfl⟩ := (informationElement_parse _ _ _ _ _).mp h
  obtain ⟨r, hr, ht⟩ := (seq_parse _ _).mp ht
  cases hr
  by_cases hne : c.val = []
  · have hzero : (UInt8.ofNat c.val.length).toNat = 0 := by rw [hne]; rfl
    rw [hzero] at ht
    rw [hne] at ht ⊢
    cases ht
    exact ⟨rfl, rfl, [], rfl, rfl⟩
  · rw [toNat_ofNat_length c.property, decide_eq_true (List.length_pos_iff.mpr hne)] at ht
    obtain ⟨i, hi, rfl⟩ := (variant_parse (ssidElement c.val.length)).mp ht
    obtain ⟨t, hname, rfl, rfl⟩ := ssidElement_text rest hi
    exact ⟨rfl, rfl, t, hname, rfl⟩

theorem find_other (pre : List OtherElement) {a : List (Bytes × InformationElement)}
    (hfst : a.map Prod.fst = pre.map Subtype.val) (hread : Read informationElement a)
    (es : List InformationElement) :
    (a.map Prod.snd ++ es).find? (fun e => e.id = .ssid) = es.find? fun e => e.id = .ssid := by
  rw [List.find?_append, List.find?_eq_none.mpr, Option.none_or]
  intro e he hid
  obtain ⟨q, hq, rfl⟩ := List.mem_map.mp he
  have hmem : q.1 ∈ pre.map Subtype.val := hfst ▸ List.mem_map_of_mem hq
  obtain ⟨p, -, hp⟩ := List.mem_map.mp hmem
  have hhead : q.1.head? = some 0 :=
    (id_eq_iff (hread q hq) 0 .ssid rfl).mp (of_decide_eq_true hid)
  exact p.property.2 (hp ▸ hhead)

/-- A beacon gives the text of its SSID element, or no name where no encoding takes the
bytes; whole elements around it make no difference. -/
theorem ssidOf_ssidFrame (h : Beacon) (pre : List OtherElement) (c : Name) (rest : Bytes) :
    ssidOf (ssidFrame h (pre.map Subtype.val).flatten c rest) =
      .ok ((nameText c).map Ssid.text) := by
  have hpre : ∀ p ∈ pre.map Subtype.val, Whole informationElement p := by
    intro p hp
    obtain ⟨q, -, rfl⟩ := List.mem_map.mp hp
    exact q.property.1
  obtain ⟨a, hfst, hread, hrange⟩ := range_flatten consumes_informationElement _ hpre
  rw [ssidFrame, ssidOf_frame, hrange, List.map_append, find_other pre hfst hread]
  cases hparse : informationElement.parse (ssidBytes c ++ rest) with
  | error e =>
    have hnone : nameText c = none := by
      by_contra hsome
      obtain ⟨v, hv, -⟩ := ssid_read c.property rest (Option.isSome_iff_ne_none.mpr hsome)
      cases hparse.symm.trans hv
    rw [range_error _ hparse, hnone]
    rfl
  | ok q =>
    obtain ⟨v, s⟩ := q
    obtain ⟨hid, rfl, t, hname, htext⟩ := ssidElement_read c rest hparse
    rw [range_front consumes_informationElement hparse, List.map_cons,
      List.find?_cons_of_pos (by simpa using hid), hname]
    exact congrArg (fun name => Except.ok (some name)) htext

theorem nameText_eq_some_iff (c : Bytes) (t : Text) : nameText c = some t ↔
    c = utf8.encode t ∨ (∀ s, c ≠ utf8.encode s) ∧ (c = (utf16 littleEndian).encode t ∨
      (∀ s, c ≠ (utf16 littleEndian).encode s) ∧ c = (utf16 bigEndian).encode t) := by
  rw [nameText, encodings, List.findSome?_cons]
  cases h8 : utf8.decode c with
  | some s =>
    have hs := (utf8.decode_iff c s).mp h8
    rw [Option.some.injEq, ← utf8.decode_iff, h8, Option.some.injEq]
    exact ⟨.inl, fun h => h.resolve_right fun hno => hno.1 s hs⟩
  | none =>
    have hno := (utf8.decode_eq_none c).mp h8
    rw [or_iff_right (hno t), and_iff_right hno, List.findSome?_cons]
    cases hle : (utf16 littleEndian).decode c with
    | some s =>
      have hs := ((utf16 littleEndian).decode_iff c s).mp hle
      rw [Option.some.injEq, ← (utf16 littleEndian).decode_iff, hle, Option.some.injEq]
      exact ⟨.inl, fun h => h.resolve_right fun hno => hno.1 s hs⟩
    | none =>
      have hno := ((utf16 littleEndian).decode_eq_none c).mp hle
      rw [or_iff_right (hno t), and_iff_right hno, List.findSome?_cons,
        ← (utf16 bigEndian).decode_iff]
      cases (utf16 bigEndian).decode c with
      | some s => rfl
      | none => rfl

/-- What is written in UTF-8 is read as it was written; only bytes that are no UTF-8 are
taken as UTF-16. -/
theorem ssidOf_iff (h : Beacon) (pre : List OtherElement) (c : Name) (rest : Bytes) (t : Text) :
    ssidOf (ssidFrame h (pre.map Subtype.val).flatten c rest) = .ok (some (.text t)) ↔
      c.val = utf8.encode t ∨ (∀ s, c.val ≠ utf8.encode s) ∧
        (c.val = (utf16 littleEndian).encode t ∨ (∀ s, c.val ≠ (utf16 littleEndian).encode s) ∧
          c.val = (utf16 bigEndian).encode t) := by
  rw [ssidOf_ssidFrame, ← nameText_eq_some_iff]
  cases nameText c with
  | none => simp
  | some s => simp

end InVehicle.WlanNetworkName
