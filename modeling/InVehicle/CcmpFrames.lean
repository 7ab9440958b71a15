import InVehicle.Ccmp

/-!
# Protected QoS data frames

The nonce and the additional data of a frame that is given in bytes, as they have to
be and as the algorithm computes them. The traffic identifier is in the low half of
the QoS control, and the parser takes it from the high half.
-/

set_option autoImplicit false

namespace InVehicle.CcmpFrames
open InVehicle.Words InVehicle.Formats InVehicle.Formats.Format InVehicle.FormatLaws
open InVehicle.WlanEnums InVehicle.WlanElements InVehicle.WlanFrame InVehicle.WlanFrameLaws
open InVehicle.WlanRebuild InVehicle.WlanBeacon InVehicle.Ccmp

/-- A protected frame of a QoS subtype that has data, with its CCMP header. Address 4
and the HT control are there where the flags say so. -/
structure QosDataFrame where
  control : UInt8
  flags : UInt8
  duration : Bytes
  address1 : Bytes
  address2 : Bytes
  address3 : Bytes
  sequence : UInt8
  sequence' : UInt8
  address4 : Bytes
  qos : UInt8
  qos' : UInt8
  htControl : Bytes
  pn0 : UInt8
  pn1 : UInt8
  res0 : UInt8
  keyId : UInt8
  pn2 : UInt8
  pn3 : UInt8
  pn4 : UInt8
  pn5 : UInt8
  data : Bytes
  data_type : control.toNat / 4 % 4 = 2
  qos_subtype : 8 ≤ control.toNat / 16 ∧ control.toNat / 16 < 12
  protected_frame : (byteBits flags).getD 6 false = true
  duration_length : duration.length = 2
  address1_length : address1.length = 6
  address2_length : address2.length = 6
  address3_length : address3.length = 6
  address4_length : address4.length =
    if (byteBits flags).getD 0 false && (byteBits flags).getD 1 false then 6 else 0
  htControl_length : htControl.length = if (byteBits flags).getD 7 false then 4 else 0

namespace QosDataFrame

variable (f : QosDataFrame)

def payload : Bytes :=
  f.pn0 :: f.pn1 :: f.res0 :: f.keyId :: f.pn2 :: f.pn3 :: f.pn4 :: f.pn5 :: f.data

def body : Bytes := f.address4 ++ f.qos :: f.qos' :: (f.htControl ++ f.payload)

def bytes : Bytes :=
  f.control :: f.flags :: (f.duration ++ (f.address1 ++ (f.address2 ++ (f.address3 ++
    f.sequence :: f.sequence' :: f.body))))

def packetNumber : Bytes := [f.pn5, f.pn4, f.pn3, f.pn2, f.pn1, f.pn0]

def tid : UInt8 := f.qos &&& 0x0f

def nonce : Bytes := f.tid :: f.address2 ++ f.packetNumber

/-- The additional data up to the fragment number. -/
def masked : Bytes :=
  [f.control &&& 0x8f, f.flags &&& 0xc7] ++ f.address1 ++ f.address2 ++ f.address3 ++
    [f.sequence &&& 0x0f, 0]

/-- Under the code's own mask of the flags, which keeps the bit of the HT control. -/
def aad : Bytes := f.masked ++ f.address4 ++ [f.tid, 0]

abbrev fc : FrameControl := frameControlOf f.control f.flags

abbrev subtype : DataSubtype := DataSubtype.decode (f.control.toNat / 16)

theorem fc_type : f.fc.type = .data := by
  simp only [fc, frameControlOf, f.data_type]
  rfl

theorem fc_subtype : f.fc.subtype = .data f.subtype := by
  simp only [fc, frameControlOf, f.data_type]
  rfl

theorem subtype_cases : f.subtype = .qosData ∨ f.subtype = .qosDataCfAck ∨
    f.subtype = .qosDataCfPoll ∨ f.subtype = .qosDataCfAckCfPoll := by
  have hsubtype := f.qos_subtype
  unfold subtype
  obtain h | h | h | h : f.control.toNat / 16 = 8 ∨ f.control.toNat / 16 = 9 ∨
      f.control.toNat / 16 = 10 ∨ f.control.toNat / 16 = 11 := by omega
  · exact .inl (by rw [h]; rfl)
  · exact .inr (.inl (by rw [h]; rfl))
  · exact .inr (.inr (.inl (by rw [h]; rfl)))
  · exact .inr (.inr (.inr (by rw [h]; rfl)))

theorem hasQoSControl_subtype : hasQoSControl f.subtype = true := by
  rcases f.subtype_cases with h | h | h | h <;> rw [h] <;> decide +kernel

theorem body_format : frameTypeParsers f.fc = dataFrameWithBody f.fc f.subtype := by
  simp only [frameTypeParsers, f.fc_type, f.fc_subtype]
  rcases f.subtype_cases with h | h | h | h <;> rw [h] <;> rfl

theorem bytes_kept : FrameKept f.bytes := by
  have hkept (b : Bytes) : DataKept f.fc f.subtype b := by
    intro hbodyless
    rcases f.subtype_cases with h | h | h | h <;> rw [h] at hbodyless <;> cases hbodyless
  show BodyKept f.fc _
  simp only [BodyKept, f.fc_type, f.fc_subtype]
  exact hkept _

theorem body_parse : ∃ header q,
    (frameTypeParsers f.fc).parse f.body = .ok (.dataWithBody header f.payload, []) ∧
      header.qosControl = some q ∧ q.tid = f.qos.toNat / 16 := by
  obtain ⟨q, hq, htid⟩ := qosControl_parse f.qos f.qos' (f.htControl ++ f.payload)
  obtain ⟨address4, haddress4⟩ := sized_front (f := optional (f.fc.toDs && f.fc.fromDs)
    addressField) f.address4 (f.qos :: f.qos' :: (f.htControl ++ f.payload)) f.address4_length
  obtain ⟨ht, hht⟩ := sized_front (f := optional f.fc.orderOrPHTC int32ul) f.htControl f.payload
    f.htControl_length
  refine ⟨⟨address4, some q, ht⟩, q, ?_, rfl, htid⟩
  rw [f.body_format]
  refine (variant_parse _).mpr ⟨(⟨address4, some q, ht⟩, f.payload), (seq_parse _ _).mpr
    ⟨f.payload, (map_parse _).mpr ⟨(address4, some q, ht), ?_, rfl⟩, rfl⟩, rfl⟩
  refine (seq_parse _ _).mpr ⟨_, haddress4, (seq_parse _ _).mpr ⟨_, ?_, hht⟩⟩
  rw [f.hasQoSControl_subtype]
  exact (variant_parse _).mpr ⟨q, hq, rfl⟩

theorem frame_parse : ∃ v header q number, wifiFrameHeader.parse f.bytes = .ok (v, []) ∧
    v.address1 = macDecode (f.address1.map UInt8.toNat) ∧
    v.address2 = some (macDecode (f.address2.map UInt8.toNat)) ∧
    v.address3 = some (macDecode (f.address3.map UInt8.toNat)) ∧
    v.sequenceControl = some (f.sequence.toNat % 16, number) ∧
    v.frameBody = some (.dataWithBody header f.payload) ∧
    header.qosControl = some q ∧ q.tid = f.qos.toNat / 16 := by
  obtain ⟨header, q, hbody, hqos, htid⟩ := f.body_parse
  obtain ⟨number, hsequence⟩ := sequenceControl_parse f.sequence f.sequence' f.body
  obtain ⟨duration, hduration⟩ := sized_front (f := int16ul) f.duration (f.address1 ++
    (f.address2 ++ (f.address3 ++ f.sequence :: f.sequence' :: f.body))) f.duration_length
  refine ⟨_, header, q, number, (map_parse _).mpr ⟨(f.fc, duration,
    macDecode (f.address1.map UInt8.toNat), some (macDecode (f.address2.map UInt8.toNat)),
    some (macDecode (f.address3.map UInt8.toNat)), none, some (f.sequence.toNat % 16, number),
    some (.dataWithBody header f.payload)), ?_, rfl⟩, rfl, rfl, rfl, rfl, rfl, hqos, htid⟩
  have hdata : decide (f.fc.type ≠ .control) = true := by rw [f.fc_type]; rfl
  have hcontrol : decide (f.fc.type = .control) = false := by rw [f.fc_type]; rfl
  refine (seq_parse _ _).mpr ⟨_, frameControl_parse f.control f.flags _, ?_⟩
  refine (seq_parse _ _).mpr ⟨_, hduration, ?_⟩
  refine (seq_parse _ _).mpr ⟨_, address_parse _ _ f.address1_length, ?_⟩
  rw [hdata, hcontrol]
  refine (seq_parse _ _).mpr ⟨_, (variant_parse _).mpr
    ⟨_, address_parse _ _ f.address2_length, rfl⟩, ?_⟩
  refine (seq_parse _ _).mpr ⟨_, (variant_parse _).mpr
    ⟨_, address_parse _ _ f.address3_length, rfl⟩, ?_⟩
  refine (seq_parse _ _).mpr ⟨_, rfl, ?_⟩
  refine (seq_parse _ _).mpr ⟨_, (variant_parse _).mpr ⟨_, hsequence, rfl⟩, ?_⟩
  exact (variant_parse _).mpr ⟨_, hbody, rfl⟩

end QosDataFrame

theorem exists_front (n : ℕ) (b : Bytes) (h : n ≤ b.length) :
    ∃ u s, b = u ++ s ∧ u.length = n ∧ b.length = n + s.length := by
  refine ⟨b.take n, b.drop n, (List.take_append_drop n b).symm, ?_, ?_⟩
  · rw [List.length_take, Nat.min_eq_left h]
  · rw [List.length_drop]
    omega

theorem exists_two (b : Bytes) (h : 2 ≤ b.length) : ∃ x y s, b = x :: y :: s := by
  obtain ⟨u, s, rfl, hu, -⟩ := exists_front 2 b h
  match u, hu with
  | [x, y], _ => exact ⟨x, y, s, rfl⟩

theorem exists_frame (x y : UInt8) (b : Bytes) (htype : x.toNat / 4 % 4 = 2)
    (hsubtype : 8 ≤ x.toNat / 16 ∧ x.toNat / 16 < 12)
    (hprotected : (byteBits y).getD 6 false = true)
    (hlen : 32 + (if (byteBits y).getD 0 false && (byteBits y).getD 1 false then 6 else 0) +
      (if (byteBits y).getD 7 false then 4 else 0) ≤ b.length) :
    ∃ f : QosDataFrame, f.bytes = x :: y :: b := by
  obtain ⟨duration, b, rfl, hduration, hrest⟩ := exists_front 2 b (by omega)
  rw [hrest] at hlen
  obtain ⟨address1, b, rfl, haddress1, hrest⟩ := exists_front 6 b (by omega)
  rw [hrest] at hlen
  obtain ⟨address2, b, rfl, haddress2, hrest⟩ := exists_front 6 b (by omega)
  rw [hrest] at hlen
  obtain ⟨address3, b, rfl, haddress3, hrest⟩ := exists_front 6 b (by omega)
  rw [hrest] at hlen
  obtain ⟨s, s', b, rfl⟩ := exists_two b (by omega)
  rw [List.length_cons, List.length_cons] at hlen
  obtain ⟨address4, b, rfl, haddress4, hrest⟩ := exists_front
    (if (byteBits y).getD 0 false && (byteBits y).getD 1 false then 6 else 0) b (by omega)
  rw [hrest] at hlen
  obtain ⟨q, q', b, rfl⟩ := exists_two b (by omega)
  rw [List.length_cons, List.length_cons] at hlen
  obtain ⟨ht, b, rfl, hht, hrest⟩ := exists_front
    (if (byteBits y).getD 7 false then 4 else 0) b (by omega)
  rw [hrest] at hlen
  obtain ⟨header, data, rfl, hheader, -⟩ := exists_front 8 b (by omega)
  match header, hheader with
  | [p0, p1, r, k, p2, p3, p4, p5], _ =>
    exact ⟨⟨x, y, duration, address1, address2, address3, s, s', address4, q, q', ht, p0, p1, r, k,
      p2, p3, p4, p5, data, htype, hsubtype, hprotected, hduration, haddress1, haddress2,
      haddress3, haddress4, hht⟩, rfl⟩

namespace QosDataFrame

variable (f : QosDataFrame)

/-! ## What the algorithm computes -/

def readTid : UInt8 := f.qos >>> 4

def readNonce : Bytes := f.readTid :: f.address2 ++ f.packetNumber

def readAad : Bytes := f.masked ++ [f.readTid, 0]

theorem ofNat_high (x : UInt8) : UInt8.ofNat (x.toNat / 16) = x >>> 4 := by
  apply UInt8.toNat_inj.mp
  have hx := x.toNat_lt
  rw [UInt8.toNat_ofNat', UInt8.toNat_shiftRight, Nat.shiftRight_eq_div_pow]
  show x.toNat / 16 % 256 = x.toNat / 16
  omega

theorem ofNat_low (x : UInt8) : UInt8.ofNat (x.toNat % 16) = x &&& 0x0f := by
  apply UInt8.toNat_inj.mp
  have hmask : x.toNat &&& 15 = x.toNat % 16 := Nat.and_two_pow_sub_one_eq_mod x.toNat 4
  rw [UInt8.toNat_ofNat', UInt8.toNat_and]
  show x.toNat % 16 % 256 = x.toNat &&& 15
  rw [hmask]
  omega

theorem le_two (n : ℕ) (h : n < 256) : byte.le 2 n = [UInt8.ofNat n, 0] := by
  show [UInt8.ofNat n, UInt8.ofNat (n / 256)] = _
  rw [Nat.div_eq_of_lt h]
  rfl

theorem masked_fc : List.zipWith (· &&& ·) f.bytes [0x8f, 0xc7] =
    [f.control &&& 0x8f, f.flags &&& 0xc7] := by
  show _ :: _ :: List.zipWith _ _ [] = _
  rw [List.zipWith_nil_right]

theorem build_parsed {v : WifiFrame} (h : wifiFrameHeader.parse f.bytes = .ok (v, [])) :
    wifiFrameHeader.build v = .ok f.bytes := by
  obtain ⟨w, hw, hiff⟩ := restores_frame f.bytes v [] h
  rw [hw, hiff.mpr f.bytes_kept]

/-- The constructor takes the identifier from the wrong half, and leaves address 4 out. -/
theorem algorithmOf_bytes : ∃ a, algorithmOf f.bytes = .ok a ∧
    a.nonce = f.readNonce ∧ a.aad = f.readAad := by
  obtain ⟨v, header, q, number, hv, h1, h2, h3, hsequence, hbody, hqos, htid⟩ := f.frame_parse
  obtain ⟨p, hp, hpn⟩ := ccmp_parse f.pn0 f.pn1 f.res0 f.keyId f.pn2 f.pn3 f.pn4 f.pn5 f.data
  have hq : qosOf v = .ok q := by
    rw [qosOf, hbody]
    show required header.qosControl = _
    rw [hqos]
    rfl
  have hnonce : createNonce v (getPn p) = .ok f.readNonce := by
    simp only [createNonce, hq, h2, hpn, required, addr2bin_macDecode, bind, Except.bind]
    rw [htid, ofNat_high, pn2bin_ofBe _ rfl]
    rfl
  have haad : createAad v = .ok f.readAad := by
    have hfragment : f.sequence.toNat % 16 &&& 0xf = f.sequence.toNat % 16 := by
      rw [Nat.and_two_pow_sub_one_eq_mod _ 4]
      omega
    have hq' := f.qos.toNat_lt
    simp only [createAad, f.build_parsed hv, hq, h1, h2, h3, hsequence, required,
      addr2bin_macDecode, bind, Except.bind]
    rw [hfragment, htid, le_two _ (by omega), le_two _ (by omega), ofNat_low, ofNat_high,
      masked_fc]
    rfl
  refine ⟨⟨p, getPn p, p.keyId, f.readNonce, f.readAad⟩, ?_, rfl, rfl⟩
  have hdata : dataOf v = .ok f.payload := by
    rw [dataOf, hbody]
  have hinit : CCMPWifiEncAlgorithm.init v f.payload =
      .ok ⟨p, getPn p, p.keyId, f.readNonce, f.readAad⟩ := by
    simp only [CCMPWifiEncAlgorithm.init, payload, hp, hnonce, haad, bind, Except.bind]
    rfl
  rw [algorithmOf, init_eq_ok.mpr ⟨v, [], hv, rfl⟩]
  show (dataOf v >>= _) = _
  rw [hdata]
  exact hinit

end QosDataFrame

/-- The nonce and the additional data for a frame in bytes. -/
def computed (packetData : Bytes) : Except Failure (Bytes × Bytes) :=
  (algorithmOf packetData).map fun a => (a.nonce, a.aad)

/-- The frames differ at most in retry, power management and more data, in the duration
and the sequence number, and in the end of the service period and the ack policy. -/
structure Alike (f g : QosDataFrame) : Prop where
  control : f.control = g.control
  flags : f.flags &&& 0xc7 = g.flags &&& 0xc7
  address1 : f.address1 = g.address1
  address2 : f.address2 = g.address2
  address3 : f.address3 = g.address3
  fragment : f.sequence &&& 0x0f = g.sequence &&& 0x0f
  address4 : f.address4 = g.address4
  qos : f.qos &&& 0x8f = g.qos &&& 0x8f
  qos' : f.qos' = g.qos'
  htControl : f.htControl = g.htControl
  payload : f.payload = g.payload

/-- The frames get different nonces and different additional data. -/
def Apart (f g : QosDataFrame) : Prop :=
  ∀ n a n' a', computed f.bytes = .ok (n, a) → computed g.bytes = .ok (n', a') → n ≠ n' ∧ a ≠ a'

section Compared
variable {f g : QosDataFrame}

theorem computed_bytes (f : QosDataFrame) : computed f.bytes = .ok (f.readNonce, f.readAad) := by
  obtain ⟨a, ha, hnonce, haad⟩ := f.algorithmOf_bytes
  rw [computed, ha, ← hnonce, ← haad]
  rfl

theorem readNonce_eq_iff : f.readNonce = g.readNonce ↔
    f.readTid = g.readTid ∧ f.address2 = g.address2 ∧ f.packetNumber = g.packetNumber := by
  constructor
  · intro h
    obtain ⟨htid, hrest⟩ := List.cons_eq_cons.mp h
    exact ⟨htid, List.append_inj hrest (f.address2_length.trans g.address2_length.symm)⟩
  · rintro ⟨htid, haddress, hnumber⟩
    rw [QosDataFrame.readNonce, QosDataFrame.readNonce, htid, haddress, hnumber]

theorem readAad_eq_iff : f.readAad = g.readAad ↔ f.masked = g.masked ∧ f.readTid = g.readTid := by
  constructor
  · intro h
    obtain ⟨hmasked, htid⟩ := List.append_inj' h rfl
    exact ⟨hmasked, (List.cons_eq_cons.mp htid).1⟩
  · rintro ⟨hmasked, htid⟩
    rw [QosDataFrame.readAad, QosDataFrame.readAad, hmasked, htid]

theorem computed_eq_iff : computed f.bytes = computed g.bytes ↔
    f.readNonce = g.readNonce ∧ f.readAad = g.readAad := by
  rw [computed_bytes, computed_bytes, Except.ok.injEq, Prod.mk.injEq]

theorem apart_iff : Apart f g ↔ f.readNonce ≠ g.readNonce ∧ f.readAad ≠ g.readAad := by
  constructor
  · intro h
    exact h _ _ _ _ (computed_bytes f) (computed_bytes g)
  · intro h n a n' a' hf hg
    rw [computed_bytes] at hf hg
    cases hf
    cases hg
    exact h

theorem computed_correct_iff : computed f.bytes = .ok (f.nonce, f.aad) ↔
    f.readTid = f.tid ∧ f.address4 = [] := by
  rw [computed_bytes, Except.ok.injEq, Prod.mk.injEq]
  constructor
  · rintro ⟨hnonce, haad⟩
    rw [QosDataFrame.readAad, QosDataFrame.aad, List.append_assoc,
      List.append_cancel_left_eq] at haad
    have hlen := congrArg List.length haad
    rw [List.length_append] at hlen
    exact ⟨(List.cons_eq_cons.mp hnonce).1, List.length_eq_zero_iff.mp (by simpa using hlen)⟩
  · rintro ⟨htid, hnone⟩
    rw [QosDataFrame.readNonce, QosDataFrame.readAad, QosDataFrame.nonce, QosDataFrame.aad, htid,
      hnone, List.append_nil]
    exact ⟨rfl, rfl⟩

theorem Alike.masked_eq (h : Alike f g) : f.masked = g.masked := by
  rw [QosDataFrame.masked, QosDataFrame.masked, h.control, h.flags, h.address1, h.address2,
    h.address3, h.fragment]

theorem Alike.packetNumber_eq (h : Alike f g) : f.packetNumber = g.packetNumber := by
  have hpayload := h.payload
  simp only [QosDataFrame.payload, List.cons_eq_cons] at hpayload
  obtain ⟨h0, h1, -, -, h2, h3, h4, h5, -⟩ := hpayload
  rw [QosDataFrame.packetNumber, QosDataFrame.packetNumber, h0, h1, h2, h3, h4, h5]

theorem Alike.readTid_eq_iff (h : Alike f g) : f.readTid = g.readTid ↔ f.qos = g.qos := by
  constructor
  · intro htid
    have hlow : f.qos &&& 0x0f = g.qos &&& 0x0f := by
      have hconst : (0x8f : UInt8) &&& 0x0f = 0x0f := by decide
      have hmask := congrArg (· &&& 0x0f) h.qos
      simpa only [UInt8.and_assoc, hconst] using hmask
    have hhigh := congrArg UInt8.toNat htid
    have hlow := congrArg UInt8.toNat hlow
    rw [QosDataFrame.readTid, QosDataFrame.readTid, ← QosDataFrame.ofNat_high,
      ← QosDataFrame.ofNat_high] at hhigh
    rw [← QosDataFrame.ofNat_low, ← QosDataFrame.ofNat_low] at hlow
    have hf := f.qos.toNat_lt
    have hg := g.qos.toNat_lt
    simp only [UInt8.toNat_ofNat'] at hhigh hlow
    apply UInt8.toNat_inj.mp
    omega
  · intro hqos
    rw [QosDataFrame.readTid, QosDataFrame.readTid, hqos]

/-- When a frame gets the nonce and the additional data that it should, when two frames
that differ in other bits only get the same, and when two of different identifiers get
different ones. -/
theorem computed_iff (f g : QosDataFrame) :
    (computed f.bytes = .ok (f.nonce, f.aad) ↔ f.qos >>> 4 = f.tid ∧ f.address4 = []) ∧
    ((Alike f g → computed f.bytes = computed g.bytes) ↔ (Alike f g → f.qos = g.qos)) ∧
    ((f.tid ≠ g.tid → Apart f g) ↔ f.tid = g.tid ∨ f.qos >>> 4 ≠ g.qos >>> 4 ∨
      (f.address2 ≠ g.address2 ∨ f.packetNumber ≠ g.packetNumber) ∧ f.masked ≠ g.masked) := by
  refine ⟨computed_correct_iff, ?_, ?_⟩
  · apply imp_congr_right
    intro h
    rw [computed_eq_iff, readNonce_eq_iff, readAad_eq_iff, h.readTid_eq_iff]
    constructor
    · exact fun hsame => hsame.1.1
    · exact fun hqos => ⟨⟨hqos, h.address2, h.packetNumber_eq⟩, h.masked_eq, hqos⟩
  · simp only [apart_iff, ne_eq, readNonce_eq_iff, readAad_eq_iff]
    rw [← or_iff_not_imp_left]
    apply or_congr_right
    show _ ↔ f.readTid ≠ g.readTid ∨ _
    by_cases htid : f.readTid = g.readTid
    · simp [htid, imp_iff_not_or]
    · simp [htid]

end Compared

/-- A frame to the distribution system, with this first byte of its QoS control. -/
def upstream (qos : UInt8) : QosDataFrame where
  control := 0x88
  flags := 0x41
  duration := [0, 0]
  address1 := [2, 0, 0, 0, 0, 1]
  address2 := [2, 0, 0, 0, 0, 2]
  address3 := [2, 0, 0, 0, 0, 3]
  sequence := 0x10
  sequence' := 0
  address4 := []
  qos := qos
  qos' := 0
  htControl := []
  pn0 := 1
  pn1 := 0
  res0 := 0
  keyId := 0x20
  pn2 := 0
  pn3 := 0
  pn4 := 0
  pn5 := 0
  data := [1, 2, 3, 4, 5, 6, 7, 8, 9]
  data_type := by decide
  qos_subtype := by decide
  protected_frame := by decide
  duration_length := rfl
  address1_length := rfl
  address2_length := rfl
  address3_length := rfl
  address4_length := rfl
  htControl_length := rfl

def bridged : QosDataFrame :=
  { upstream 0 with
    flags := 0x43
    address4 := [2, 0, 0, 0, 0, 4]
    protected_frame := by decide
    address4_length := rfl
    htControl_length := rfl }

/-- The identifier 5 is taken for 0, as is 6; the end of the service period changes the
nonce; and address 4 is missing from the additional data. -/
theorem tid_misread :
    computed (upstream 5).bytes ≠ .ok ((upstream 5).nonce, (upstream 5).aad) ∧
    (Alike (upstream 0x10) (upstream 0) ∧
      computed (upstream 0x10).bytes ≠ computed (upstream 0).bytes) ∧
    ((upstream 5).tid ≠ (upstream 6).tid ∧
      computed (upstream 5).bytes = computed (upstream 6).bytes) ∧
    computed bridged.bytes ≠ .ok (bridged.nonce, bridged.aad) := by
  refine ⟨by decide +kernel, ⟨?_, by decide +kernel⟩, ⟨by decide, by decide +kernel⟩,
    by decide +kernel⟩
  exact ⟨rfl, rfl, rfl, rfl, rfl, rfl, rfl, by decide, rfl, rfl, rfl⟩

end InVehicle.CcmpFrames
