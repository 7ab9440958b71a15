import InVehicle.WlanBeacon

/-!
# The start of the data in a data frame

The header of a data frame has the fields that its flags and its subtype announce,
and the data begins behind them. The parser compares the names of the subtypes where
the numbers are meant, and leaves the subtype out where it asks for the HT control.
-/

set_option autoImplicit false

namespace InVehicle.WlanDataFrame
open InVehicle.Words InVehicle.Formats InVehicle.Formats.Format InVehicle.FormatLaws
open InVehicle.WlanEnums InVehicle.WlanElements InVehicle.WlanFrame InVehicle.WlanFrameLaws
open InVehicle.WlanRebuild InVehicle.WlanBeacon

/-- The fields of a data frame's header that its frame control announces, by the number
of the subtype. -/
def announcedAddress4 (flags : UInt8) : Bool :=
  (byteBits flags).getD 0 false && (byteBits flags).getD 1 false

def announcedQos (number : ℕ) : Bool := 8 ≤ number

def announcedHt (number : ℕ) (flags : UInt8) : Bool :=
  announcedQos number && (byteBits flags).getD 7 false

def announcedLength (number : ℕ) (flags : UInt8) : ℕ :=
  6 * (announcedAddress4 flags).toNat + 2 * (announcedQos number).toNat +
    4 * (announcedHt number flags).toNat

structure DataFrame where
  control : UInt8
  flags : UInt8
  rest : Bytes
  data_type : control.toNat / 4 % 4 = 2
  long : 22 + announcedLength (control.toNat / 16) flags ≤ rest.length

def hasBody (number : ℕ) : Bool := number < 4 ∨ 8 ≤ number ∧ number < 12

def headerOf : FrameBody → Option DataFrameHeader
  | .dataWithBody header _ => some header
  | .dataWithoutBody header => some header
  | _ => none

def dataOf : FrameBody → Option Bytes
  | .dataWithBody _ data => some data
  | _ => none

structure Announced (number : ℕ) (flags : UInt8) (header : DataFrameHeader) : Prop where
  address4 : header.address4.isSome = announcedAddress4 flags
  qosControl : header.qosControl.isSome = announcedQos number
  htControl : header.htControl.isSome = announcedHt number flags

namespace DataFrame
variable (f : DataFrame)

def bytes : Bytes := f.control :: f.flags :: f.rest

def number : ℕ := f.control.toNat / 16

/-- The frame parses to a header with the announced fields and the data behind it. -/
def HeaderRight : Prop :=
  ∃ v s body header, wifiFrameHeader.parse f.bytes = .ok (v, s) ∧ v.frameBody = some body ∧
    headerOf body = some header ∧ Announced f.number f.flags header ∧
    dataOf body = if hasBody f.number
      then some (f.bytes.drop (24 + announcedLength f.number f.flags)) else none

/-- The name of the subtype is where its number is in the order, and the HT control is
announced by a QoS subtype if at all. -/
def Regular : Prop :=
  f.number < 13 ∧ ((byteBits f.flags).getD 7 false = true → 8 ≤ f.number)

/-! ## What the parser reads -/

abbrev fc : FrameControl := frameControlOf f.control f.flags

abbrev subtype : DataSubtype := DataSubtype.decode f.number

theorem fc_type : f.fc.type = .data := by
  simp only [fc, frameControlOf, f.data_type]
  rfl

theorem fc_subtype : f.fc.subtype = .data f.subtype := by
  simp only [fc, frameControlOf, f.data_type]
  rfl

theorem number_lt : f.number < 16 := by
  have hcontrol := f.control.toNat_lt
  unfold number
  omega

end DataFrame

theorem hasQoSControl_decode (n : ℕ) (hn : n < 16) :
    hasQoSControl (DataSubtype.decode n) = decide (8 ≤ n ∧ n < 14) := by
  interval_cases n <;> decide +kernel

theorem optional_isSome {α : Type} {c : Bool} {g : Format UInt8 α} {b s : Bytes} {a : Option α}
    (h : (optional c g).parse b = .ok (a, s)) : a.isSome = c := by
  cases c with
  | false =>
    cases h
    rfl
  | true =>
    obtain ⟨x, -, rfl⟩ := (variant_parse _).mp h
    rfl

theorem header_fields {fc : FrameControl} {t : DataSubtype} {b s : Bytes} {header : DataFrameHeader}
    (h : (dataFrameHeader fc t).parse b = .ok (header, s)) :
    header.address4.isSome = (fc.toDs && fc.fromDs) ∧
      header.qosControl.isSome = hasQoSControl t ∧ header.htControl.isSome = fc.orderOrPHTC := by
  obtain ⟨⟨address4, qos, ht⟩, hp, rfl⟩ := (map_parse _).mp h
  obtain ⟨r, haddress4, hp⟩ := (seq_parse _ _).mp hp
  obtain ⟨r', hqos, hht⟩ := (seq_parse _ _).mp hp
  exact ⟨optional_isSome haddress4, optional_isSome hqos, optional_isSome hht⟩

theorem dataSubtypeParsers_eq (fc : FrameControl) (n : ℕ) (hn : n < 16) (hne : n ≠ 13) :
    dataSubtypeParsers fc (DataSubtype.decode n) =
      if hasBody n then dataFrameWithBody fc (DataSubtype.decode n)
      else dataFrameWithoutBody fc (DataSubtype.decode n) := by
  interval_cases n <;> first | rfl | exact absurd rfl hne

theorem body_fields {fc : FrameControl} {n : ℕ} (hn : n < 16) {b s : Bytes} {body : FrameBody}
    {header : DataFrameHeader} (h : (dataSubtypeParsers fc (DataSubtype.decode n)).parse b =
      .ok (body, s)) (hheader : headerOf body = some header) :
    n ≠ 13 ∧ ∃ r, (dataFrameHeader fc (DataSubtype.decode n)).parse b = .ok (header, r) := by
  have hne : n ≠ 13 := by
    rintro rfl
    obtain ⟨data, -, rfl⟩ := (variant_parse _).mp h
    cases hheader
  refine ⟨hne, ?_⟩
  rw [dataSubtypeParsers_eq fc n hn hne] at h
  by_cases hbody : hasBody n = true
  · rw [if_pos hbody] at h
    obtain ⟨⟨header', data⟩, hp, rfl⟩ := (variant_parse _).mp h
    obtain ⟨r, hr, -⟩ := (seq_parse _ _).mp hp
    cases hheader
    exact ⟨r, hr⟩
  · rw [if_neg hbody] at h
    obtain ⟨header', hp, rfl⟩ := (variant_parse _).mp h
    cases hheader
    exact ⟨s, hp⟩

theorem body_parse {fc : FrameControl} {n : ℕ} (hn : n < 16) (hne : n ≠ 13) {b : Bytes}
    (hlen : headerLength fc (DataSubtype.decode n) ≤ b.length) :
    ∃ body header s, (dataSubtypeParsers fc (DataSubtype.decode n)).parse b = .ok (body, s) ∧
      headerOf body = some header ∧
      dataOf body = if hasBody n
        then some (b.drop (headerLength fc (DataSubtype.decode n))) else none := by
  obtain ⟨header, hheader⟩ := (inferInstance : Sized (dataFrameHeader fc (DataSubtype.decode n))
    (headerLength fc (DataSubtype.decode n))).enough b hlen
  rw [dataSubtypeParsers_eq fc n hn hne]
  by_cases hbody : hasBody n = true
  · rw [if_pos hbody, if_pos hbody]
    exact ⟨_, header, [], (variant_parse _).mpr ⟨(header, _), (seq_parse _ _).mpr
      ⟨_, hheader, rfl⟩, rfl⟩, rfl, rfl⟩
  · rw [if_neg hbody, if_neg hbody]
    exact ⟨_, header, _, (variant_parse _).mpr ⟨header, hheader, rfl⟩, rfl, rfl⟩

theorem pair_drop {α β : Type} {g : Format UInt8 α} {h : Format UInt8 β} {m : ℕ} [Sized g m]
    {b s : Bytes} {p : α × β} (hp : (g.pair h).parse b = .ok (p, s)) :
    h.parse (b.drop m) = .ok (p.2, s) := by
  obtain ⟨r, hr, hx⟩ := (seq_parse _ _).mp hp
  obtain ⟨-, rfl⟩ := sized_drop hr
  exact hx

theorem frameTail_body {fc : FrameControl} (hc : fc.type ≠ .control) {b s : Bytes} {p}
    (h : (frameTail fc).parse b = .ok (p, s)) :
    ∃ body, p.2.2.2.2.2.2 = some body ∧
      (frameTypeParsers fc).parse (b.drop 22) = .ok (body, s) := by
  simp only [frameTail, hc, ne_eq, not_false_eq_true, decide_false, decide_true] at h
  have hbody := pair_drop (pair_drop (pair_drop (pair_drop (pair_drop (pair_drop h)))))
  simp only [List.drop_drop] at hbody
  obtain ⟨body, hbody, heq⟩ := (variant_parse _).mp hbody
  exact ⟨body, heq.symm, hbody⟩

namespace DataFrame
variable (f : DataFrame)

theorem body_format : frameTypeParsers f.fc = dataSubtypeParsers f.fc f.subtype := by
  simp only [frameTypeParsers, f.fc_type, f.fc_subtype]

theorem frame_parse {body : FrameBody} {s : Bytes}
    (h : (dataSubtypeParsers f.fc f.subtype).parse (f.rest.drop 22) = .ok (body, s)) :
    ∃ v, wifiFrameHeader.parse f.bytes = .ok (v, s) ∧ v.frameBody = some body := by
  have hlong := f.long
  rw [← f.body_format] at h
  obtain ⟨p, hp, hbody⟩ := Beacon.frameTail_parse f.fc (by rw [f.fc_type]; decide) f.rest s body
    (by omega) h
  exact ⟨_, (map_parse _).mpr ⟨(_, p), (seq_parse _ _).mpr ⟨_, frameControl_parse _ _ _, hp⟩, rfl⟩,
    hbody⟩

theorem frame_body {v : WifiFrame} {s : Bytes} {body : FrameBody}
    (h : wifiFrameHeader.parse f.bytes = .ok (v, s)) (hbody : v.frameBody = some body) :
    (dataSubtypeParsers f.fc f.subtype).parse (f.rest.drop 22) = .ok (body, s) := by
  obtain ⟨⟨fc, p⟩, hp, rfl⟩ := (map_parse _).mp h
  obtain ⟨r, hr, hp⟩ := (seq_parse _ _).mp hp
  rw [bytes, frameControl_parse] at hr
  obtain ⟨hfc, rfl⟩ := Prod.mk.inj (Except.ok.inj hr)
  have hfc : fc = f.fc := hfc.symm
  subst hfc
  obtain ⟨body', heq, hbody'⟩ := frameTail_body (by rw [f.fc_type]; decide) hp
  rw [f.body_format] at hbody'
  cases hbody.symm.trans heq
  exact hbody'

theorem announced_iff {header : DataFrameHeader} {b r : Bytes}
    (h : (dataFrameHeader f.fc f.subtype).parse b = .ok (header, r)) :
    Announced f.number f.flags header ↔
      f.number < 14 ∧ ((byteBits f.flags).getD 7 false = true → 8 ≤ f.number) := by
  obtain ⟨haddress4, hqos, hht⟩ := header_fields h
  rw [hasQoSControl_decode f.number f.number_lt] at hqos
  have hht : header.htControl.isSome = (byteBits f.flags).getD 7 false := hht
  constructor
  · rintro ⟨-, hannounced, hannounced'⟩
    rw [hqos, announcedQos, decide_eq_decide] at hannounced
    rw [hht, announcedHt, announcedQos] at hannounced'
    refine ⟨by omega, fun horder => ?_⟩
    rw [horder, Bool.and_true] at hannounced'
    exact of_decide_eq_true hannounced'.symm
  · rintro ⟨hnumber, horder⟩
    refine ⟨haddress4, ?_, ?_⟩
    · rw [hqos, announcedQos, decide_eq_decide]
      omega
    · rw [hht, announcedHt, announcedQos]
      cases hbit : (byteBits f.flags).getD 7 false with
      | false => rw [Bool.and_false]
      | true => rw [decide_eq_true (horder hbit), Bool.and_true]

theorem headerLength_eq (h : f.Regular) : headerLength f.fc f.subtype =
    announcedLength f.number f.flags := by
  obtain ⟨hnumber, horder⟩ := h
  have hqos : hasQoSControl f.subtype = announcedQos f.number := by
    rw [hasQoSControl_decode f.number f.number_lt, announcedQos, decide_eq_decide]
    omega
  have hht : f.fc.orderOrPHTC = announcedHt f.number f.flags := by
    show (byteBits f.flags).getD 7 false = _
    rw [announcedHt, announcedQos]
    cases hbit : (byteBits f.flags).getD 7 false with
    | false => rw [Bool.and_false]
    | true => rw [decide_eq_true (horder hbit), Bool.and_true]
  have haddress4 : (f.fc.toDs && f.fc.fromDs) = announcedAddress4 f.flags := rfl
  rw [headerLength, hqos, hht, haddress4, announcedLength]
  cases announcedAddress4 f.flags <;> cases announcedQos f.number <;>
    cases announcedHt f.number f.flags <;> rfl

theorem regular_of_right (h : f.HeaderRight) : f.Regular := by
  obtain ⟨v, s, body, header, hv, hbody, hheader, hannounced, -⟩ := h
  obtain ⟨hne, r, hr⟩ := body_fields f.number_lt (f.frame_body hv hbody) hheader
  obtain ⟨hnumber, horder⟩ := (f.announced_iff hr).mp hannounced
  exact ⟨by omega, horder⟩

theorem right_iff : f.HeaderRight ↔ f.Regular := by
  refine ⟨f.regular_of_right, fun h => ?_⟩
  have hlong := f.long
  have hlength := f.headerLength_eq h
  have hdrop : headerLength f.fc f.subtype ≤ (f.rest.drop 22).length := by
    rw [hlength, List.length_drop]
    unfold number
    omega
  obtain ⟨hnumber, horder⟩ := h
  obtain ⟨body, header, s, hparse, hheader, hdata⟩ := body_parse f.number_lt (by omega) hdrop
  obtain ⟨v, hv, hbody⟩ := f.frame_parse hparse
  obtain ⟨-, r, hr⟩ := body_fields f.number_lt hparse hheader
  refine ⟨v, s, body, header, hv, hbody, hheader,
    (f.announced_iff hr).mpr ⟨by omega, horder⟩, ?_⟩
  rw [hdata, hlength, List.drop_drop, bytes]
  have hsum : 24 + announcedLength f.number f.flags =
      22 + announcedLength f.number f.flags + 1 + 1 := by omega
  rw [hsum, List.drop_succ_cons, List.drop_succ_cons]

end DataFrame

/-! ## Two frames that are read otherwise -/

/-- A QoS frame without data, and its QoS control. -/
def qosCfPollNoData : DataFrame where
  control := 0xE8
  flags := 0
  rest := List.replicate 24 0
  data_type := by decide
  long := by decide

/-- A frame without QoS that has the order bit set. -/
def orderedData : DataFrame where
  control := 0x08
  flags := 0x80
  rest := List.replicate 30 0
  data_type := by decide
  long := by decide

theorem fields_not_announced : ¬ qosCfPollNoData.HeaderRight ∧ ¬ orderedData.HeaderRight :=
  ⟨fun h => absurd (qosCfPollNoData.regular_of_right h).1 (by decide),
    fun h => absurd ((orderedData.regular_of_right h).2 (by decide)) (by decide)⟩

end InVehicle.WlanDataFrame
