import InVehicle.WlanBeacon

/-!
# The CCMP algorithm of a frame

What `CCMPWifiEncAlgorithm` takes from a parsed frame and its payload: the packet
number, the nonce and the additional data.
-/

set_option autoImplicit false

namespace InVehicle.Ccmp
open InVehicle.Words InVehicle.Formats InVehicle.Formats.Format InVehicle.FormatLaws
open InVehicle.TextCodecs InVehicle.HexText InVehicle.WlanElements InVehicle.WlanFrame
open InVehicle.WlanFrameLaws InVehicle.WlanSecurity

structure CcmpPayload where
  pn0 : ℕ
  pn1 : ℕ
  res0 : ℕ
  keyId : ℕ
  extIv : ℕ
  res1 : ℕ
  pn2 : ℕ
  pn3 : ℕ
  pn4 : ℕ
  pn5 : ℕ
  data : Bytes
  deriving DecidableEq, Repr

abbrev octet : Format Bool ℕ := bitsInteger 8

abbrev ccmpBits :=
  octet.pair <| octet.pair <| octet.pair <| (bitsInteger 2).pair <| (bitsInteger 1).pair <|
    (bitsInteger 5).pair <| octet.pair <| octet.pair <| octet.pair octet

/-- `CCMP`: the bits end with the eighth byte, and `data` is read in bytes again. -/
def ccmp : Format UInt8 CcmpPayload :=
  ((bitStruct false 8 ccmpBits).pair greedyBytes).map
    (fun ⟨⟨a, b, c, d, e, f, g, h, i, j⟩, k⟩ => ⟨a, b, c, d, e, f, g, h, i, j, k⟩)
    (fun ⟨a, b, c, d, e, f, g, h, i, j, k⟩ => ⟨⟨a, b, c, d, e, f, g, h, i, j⟩, k⟩)

structure CCMPWifiEncAlgorithm where
  ccmpPayload : CcmpPayload
  pn : ℕ
  keyId : ℕ
  nonce : Bytes
  aad : Bytes
  deriving DecidableEq, Repr

def getPn (p : CcmpPayload) : ℕ :=
  let pn := p.pn5
  let pn := pn <<< 8 ||| p.pn4
  let pn := pn <<< 8 ||| p.pn3
  let pn := pn <<< 8 ||| p.pn2
  let pn := pn <<< 8 ||| p.pn1
  pn <<< 8 ||| p.pn0

/-- `binascii.a2b_hex` without the colons. -/
def addr2bin (addr : Text) : Except Failure Bytes :=
  match fromHex (addr.filter (· ≠ ':')) with
  | some b => .ok b
  | none => .error .valueError

/-- `struct.pack(">Q", pn)[2:]`, for a number of eight bytes. -/
def pn2bin (pn : ℕ) : Bytes := (byte.be 8 pn).drop 2

/-- An attribute is asked of a field that may be None. -/
def required {α : Type} : Option α → Except Failure α
  | some a => .ok a
  | none => .error .attributeError

/-- `mac_header.frame_body.header.qos_control` -/
def qosOf (macHeader : WifiFrame) : Except Failure QoSControl :=
  match macHeader.frameBody with
  | some (.dataWithBody header _) | some (.dataWithoutBody header) => required header.qosControl
  | _ => .error .attributeError

def createNonce (macHeader : WifiFrame) (pn : ℕ) : Except Failure Bytes := do
  let qos ← qosOf macHeader
  let addr ← required macHeader.address2
  let addr ← addr2bin addr
  return UInt8.ofNat qos.tid :: addr ++ pn2bin pn

def createAad (macHeader : WifiFrame) : Except Failure Bytes := do
  let macHeadersRaw ← wifiFrameHeader.build macHeader
  let fc := List.zipWith (· &&& ·) macHeadersRaw [0x8f, 0xc7]
  let sequence ← required macHeader.sequenceControl
  let sc := byte.le 2 (sequence.1 &&& 0xf)
  let addr1 ← addr2bin macHeader.address1
  let addr2 ← required macHeader.address2 >>= addr2bin
  let addr3 ← required macHeader.address3 >>= addr2bin
  let qos ← qosOf macHeader
  let tid := byte.le 2 qos.tid
  return fc ++ addr1 ++ addr2 ++ addr3 ++ sc ++ tid

def CCMPWifiEncAlgorithm.init (macHeader : WifiFrame) (payload : Bytes) :
    Except Failure CCMPWifiEncAlgorithm := do
  let ccmpPayload ← ccmp.parseAll payload
  let pn := getPn ccmpPayload
  let nonce ← createNonce macHeader pn
  let aad ← createAad macHeader
  return ⟨ccmpPayload, pn, ccmpPayload.keyId, nonce, aad⟩

/-- `frame_body.data` -/
def dataOf (frame : WifiFrame) : Except Failure Bytes :=
  match frame.frameBody with
  | some (.dataWithBody _ data) => .ok data
  | _ => .error .attributeError

/-- The algorithm that `decrypt` makes from the packet of these bytes. -/
def algorithmOf (packetData : Bytes) : Except Failure CCMPWifiEncAlgorithm := do
  let p ← WlanSecurity.init packetData
  let data ← dataOf p.parsedData
  CCMPWifiEncAlgorithm.init p.parsedData data

/-! ## The fields as bytes -/

theorem filter_intercalate (ts : List Text) (h : ∀ t ∈ ts, ':' ∉ t) :
    ([':'].intercalate ts).filter (· ≠ ':') = ts.flatten := by
  induction ts with
  | nil => rfl
  | cons t ts ih =>
    obtain ⟨ht, hts⟩ := List.forall_mem_cons.mp h
    have hkeep : t.filter (· ≠ ':') = t :=
      List.filter_eq_self.mpr fun c hc => decide_eq_true fun he => ht (he ▸ hc)
    cases ts with
    | nil =>
      rw [List.intercalate_singleton, hkeep, List.flatten_cons, List.flatten_nil, List.append_nil]
    | cons u ts =>
      have hseparator : [':'].filter (· ≠ ':') = [] := by decide
      rw [List.intercalate_cons_cons, List.filter_append, List.filter_append, hkeep, ih hts,
        hseparator, List.append_nil]
      rfl

theorem addr2bin_macDecode (a : Bytes) : addr2bin (macDecode (a.map UInt8.toNat)) = .ok a := by
  have hcolon : ∀ t ∈ (a.map UInt8.toNat).map hexByte, ':' ∉ t := by
    intro t ht
    obtain ⟨n, hn, rfl⟩ := List.mem_map.mp ht
    obtain ⟨x, -, rfl⟩ := List.mem_map.mp hn
    exact colon_notMem_hexByte x.toNat x.toNat_lt
  have hhex : ((a.map UInt8.toNat).map hexByte).flatten = hex a := by
    rw [List.map_map]
    rfl
  rw [addr2bin, macDecode, filter_intercalate _ hcolon, hhex, fromHex_hex]

theorem shiftLeft_or (n : ℕ) (x : UInt8) : n <<< 8 ||| x.toNat = x.toNat + 256 * n := by
  rw [← Nat.shiftLeft_add_eq_or_of_lt x.toNat_lt, Nat.shiftLeft_eq]
  omega

theorem pn2bin_ofBe (b : Bytes) (h : b.length = 6) : pn2bin (byte.ofBe b) = b := by
  have hsplit := byte.le_add 6 2 (byte.ofBe b)
  have hbytes := byte.be_ofBe b
  rw [h, Digit.be] at hbytes
  rw [pn2bin, Digit.be, hsplit, List.reverse_append, hbytes]
  exact List.drop_left' (byte.length_be 2 _)

theorem getPn_eq (p : CcmpPayload) (x0 x1 x2 x3 x4 x5 : UInt8) (h0 : p.pn0 = x0.toNat)
    (h1 : p.pn1 = x1.toNat) (h2 : p.pn2 = x2.toNat) (h3 : p.pn3 = x3.toNat)
    (h4 : p.pn4 = x4.toNat) (h5 : p.pn5 = x5.toNat) :
    getPn p = byte.ofBe [x5, x4, x3, x2, x1, x0] := by
  simp only [getPn, h0, h1, h2, h3, h4, h5, shiftLeft_or]
  simp [Digit.ofBe, byte]

/-! ## The formats of the fields -/

theorem octet_value (x : UInt8) : bit.ofBe (unpack false x) = x.toNat :=
  bit.ofBe_be 8 x.toNat x.toNat_lt

theorem ccmp_parse (x0 x1 r k x2 x3 x4 x5 : UInt8) (data : Bytes) :
    ∃ p, ccmp.parseAll (x0 :: x1 :: r :: k :: x2 :: x3 :: x4 :: x5 :: data) = .ok p ∧
      getPn p = byte.ofBe [x5, x4, x3, x2, x1, x0] := by
  have hall : ccmpBits.parseAll ([x0, x1, r, k, x2, x3, x4, x5].flatMap (unpack false)) = .ok _ :=
    rfl
  have hbits := bitStruct_parse (s := data) (n := 8) (u := [x0, x1, r, k, x2, x3, x4, x5]) rfl hall
  refine ⟨_, (parseAll_ok ccmp).mpr
    ⟨[], (map_parse _).mpr ⟨(_, data), (seq_parse _ _).mpr ⟨data, hbits, rfl⟩, rfl⟩⟩, ?_⟩
  exact getPn_eq _ x0 x1 x2 x3 x4 x5 (octet_value x0) (octet_value x1) (octet_value x2)
    (octet_value x3) (octet_value x4) (octet_value x5)

theorem address_parse (a s : Bytes) (h : a.length = 6) :
    addressField.parse (a ++ s) = .ok (macDecode (a.map UInt8.toNat), s) := by
  have hbyte (x : UInt8) (s : Bytes) : byteField.parse ([x] ++ s) = .ok (x.toNat, s) :=
    WlanElementLaws.byteField_parse x s
  have harray := array_parse hbyte a s
  rw [h, List.flatMap_singleton'] at harray
  exact (adapt_parse _).mpr ⟨_, harray, rfl⟩

theorem byteBits_halves (x : UInt8) :
    byteBits x = bit.le 4 x.toNat ++ bit.le 4 (x.toNat / 16) := bit.le_add 4 4 x.toNat

theorem sequenceControl_parse (x y : UInt8) (s : Bytes) : ∃ number,
    sequenceControl.parse (x :: y :: s) = .ok ((x.toNat % 16, number), s) := by
  have hbits : [x, y].flatMap (unpack true) =
      bit.le 4 x.toNat ++ (bit.le 4 (x.toNat / 16) ++ byteBits y) := by
    rw [← List.append_assoc, ← byteBits_halves]
    exact congrArg _ (List.append_nil _)
  obtain ⟨number, hnumber⟩ := (sized_whole (f := swapBitsAdapter 12)
    (bit.le 4 (x.toNat / 16) ++ byteBits y)).mpr (by simp)
  have hparse : sequenceControlBits.parse ([x, y].flatMap (unpack true)) =
      .ok ((x.toNat % 16, number), []) := by
    rw [hbits]
    exact (seq_parse _ _).mpr ⟨_, swapBitsAdapter_parse (by omega) _, hnumber⟩
  exact ⟨number, bitStruct_parse (u := [x, y]) rfl ((parseAll_ok _).mpr ⟨[], hparse⟩)⟩

theorem qosControl_parse (x y : UInt8) (s : Bytes) : ∃ q,
    qosControl.parse (x :: y :: s) = .ok (q, s) ∧ q.tid = x.toNat / 16 := by
  have hall : qosControlBits.parseAll ([x, y].flatMap (unpack false)) = .ok _ := rfl
  have hx := x.toNat_lt
  have htid : bit.ofBe ((unpack false x).take 4) = x.toNat / 16 := by
    have hreverse : unpack false x = bit.be 4 (x.toNat / 16) ++ bit.be 4 x.toNat := by
      show (byteBits x).reverse = _
      rw [byteBits_halves, List.reverse_append]
      rfl
    rw [hreverse, List.take_left' (bit.length_be 4 _)]
    exact bit.ofBe_be 4 _ (show _ < 16 by omega)
  exact ⟨_, (map_parse _).mpr ⟨_, bitStruct_parse (u := [x, y]) rfl hall, rfl⟩, htid⟩

end InVehicle.Ccmp
