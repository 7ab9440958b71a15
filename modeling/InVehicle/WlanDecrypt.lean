import InVehicle.CcmpFrames

/-!
# Decrypting protected frames

`WiFiPacket.decrypt` opens a frame with a cipher in CCM mode, by the nonce and the
additional data that it computes. The cipher is any one whose decryption undoes its
encryption.
-/

set_option autoImplicit false

namespace InVehicle.WlanDecrypt
open InVehicle.Words InVehicle.Formats InVehicle.Formats.Format InVehicle.FormatLaws
open InVehicle.WlanFrame InVehicle.WlanBeacon InVehicle.WlanSecurity
open InVehicle.Ccmp InVehicle.CcmpFrames

/-- `AES.MODE_CCM` with a code of eight bytes. The key stream is made from the nonce, and
the code also covers the additional data. -/
structure Ccm where
  encrypt : (key nonce plaintext : Bytes) → Bytes
  decrypt : (key nonce ciphertext : Bytes) → Bytes
  mac : (key nonce aad plaintext : Bytes) → Bytes
  decrypt_encrypt : ∀ key nonce plaintext,
    decrypt key nonce (encrypt key nonce plaintext) = plaintext
  mac_length : ∀ key nonce aad plaintext, (mac key nonce aad plaintext).length = 8

/-- `AES.new` takes the keys of these lengths. -/
def isAesKey (key : Bytes) : Bool := key.length = 16 ∨ key.length = 24 ∨ key.length = 32

variable (ccm : Ccm)

/-- The last eight bytes are the code, or all of them where there are fewer. -/
def CCMPWifiEncAlgorithm.decrypt (a : CCMPWifiEncAlgorithm) (tk : Bytes) (verify : Bool) :
    Except Failure (Option Bytes) :=
  if isAesKey tk then
    let payload := a.ccmpPayload.data
    let plaintext := ccm.decrypt tk a.nonce (payload.take (payload.length - 8))
    let code := payload.drop (payload.length - 8)
    if verify ∧ ccm.mac tk a.nonce a.aad plaintext ≠ code then .ok none else .ok (some plaintext)
  else .error .valueError

def llcPrefix : Bytes := [0xAA, 0xAA, 0x03, 0x00, 0x00, 0x00]

def withLlc (validateLlc : Bool) (decryptedData : Option Bytes) : Option Bytes :=
  decryptedData.filter fun b => !validateLlc || llcPrefix.isPrefixOf b

/-- `decrypt` of the packet of these bytes. -/
def decrypt (packetData key : Bytes) (validateLlc verify : Bool) :
    Except Failure (Option Bytes) := do
  let algorithm ← algorithmOf packetData
  let decryptedData ← CCMPWifiEncAlgorithm.decrypt ccm algorithm key verify
  return withLlc validateLlc decryptedData

/-! ## What the sender does -/

def withData (f : QosDataFrame) (data : Bytes) : QosDataFrame := { f with data := data }

/-- IEEE 802.11 also clears the bit of the HT control, in every frame with QoS control. -/
def standardAad (f : QosDataFrame) : Bytes :=
  [f.control &&& 0x8f, f.flags &&& 0x47] ++ f.address1 ++ f.address2 ++ f.address3 ++
    [f.sequence &&& 0x0f, 0] ++ f.address4 ++ [f.tid, 0]

/-- The plaintext under the nonce and the additional data that the standard asks for. -/
def protect (f : QosDataFrame) (key plaintext : Bytes) : QosDataFrame :=
  withData f (ccm.encrypt key f.nonce plaintext ++ ccm.mac key f.nonce (standardAad f) plaintext)

/-! ## What the receiver finds -/

theorem ccmp_data {x0 x1 r k x2 x3 x4 x5 : UInt8} {data : Bytes} {p : CcmpPayload}
    (h : ccmp.parseAll (x0 :: x1 :: r :: k :: x2 :: x3 :: x4 :: x5 :: data) = .ok p) :
    p.data = data := by
  have hall : ccmpBits.parseAll ([x0, x1, r, k, x2, x3, x4, x5].flatMap (unpack false)) = .ok _ :=
    rfl
  have hbits := bitStruct_parse (s := data) (n := 8) (u := [x0, x1, r, k, x2, x3, x4, x5]) rfl hall
  have hparse : ccmp.parseAll (x0 :: x1 :: r :: k :: x2 :: x3 :: x4 :: x5 :: data) = .ok _ :=
    (parseAll_ok ccmp).mpr
      ⟨[], (map_parse _).mpr ⟨(_, data), (seq_parse _ _).mpr ⟨data, hbits, rfl⟩, rfl⟩⟩
  rw [← Except.ok.inj (hparse.symm.trans h)]

theorem algorithmOf_data (f : QosDataFrame) {a : CCMPWifiEncAlgorithm}
    (h : algorithmOf f.bytes = .ok a) : a.ccmpPayload.data = f.data := by
  obtain ⟨p, hp, hinit⟩ := except_bind_eq_ok.mp h
  obtain ⟨data, hdata, hinit⟩ := except_bind_eq_ok.mp hinit
  rw [CCMPWifiEncAlgorithm.init] at hinit
  obtain ⟨payload, hpayload, hrest⟩ := except_bind_eq_ok.mp hinit
  simp only at hrest
  obtain ⟨nonce, -, haad⟩ := except_bind_eq_ok.mp hrest
  obtain ⟨aad, -, hlast⟩ := except_bind_eq_ok.mp haad
  obtain ⟨v, header, q, number, hv, -, -, -, -, hbody, -⟩ := f.frame_parse
  obtain ⟨w, s, hw, rfl⟩ := init_eq_ok.mp hp
  obtain rfl : v = w := congrArg Prod.fst (Except.ok.inj (hv.symm.trans hw))
  have hframe : dataOf v = .ok f.payload := by
    rw [dataOf, hbody]
  obtain rfl : f.payload = data := Except.ok.inj (hframe.symm.trans hdata)
  rw [← Except.ok.inj hlast]
  exact ccmp_data hpayload

theorem decrypt_bytes (f : QosDataFrame) (key : Bytes) (validateLlc verify : Bool)
    (hkey : isAesKey key = true) :
    decrypt ccm f.bytes key validateLlc verify =
      let plaintext := ccm.decrypt key f.readNonce (f.data.take (f.data.length - 8))
      if verify ∧ ccm.mac key f.readNonce f.readAad plaintext ≠ f.data.drop (f.data.length - 8)
      then .ok none else .ok (withLlc validateLlc (some plaintext)) := by
  obtain ⟨a, ha, hnonce, haad⟩ := f.algorithmOf_bytes
  have hdata := algorithmOf_data f ha
  simp only [decrypt, ha, bind, Except.bind, CCMPWifiEncAlgorithm.decrypt, hkey, if_true, hdata,
    hnonce, haad]
  split_ifs
  · rfl
  · rfl

theorem decrypt_protected (f : QosDataFrame) (key plaintext : Bytes)
    (validateLlc verify : Bool) (hkey : isAesKey key = true) :
    decrypt ccm (protect ccm f key plaintext).bytes key validateLlc verify =
      let opened := ccm.decrypt key f.readNonce (ccm.encrypt key f.nonce plaintext)
      if verify ∧ ccm.mac key f.readNonce f.readAad opened ≠ ccm.mac key f.nonce (standardAad f) plaintext
      then .ok none else .ok (withLlc validateLlc (some opened)) := by
  have hlength : (protect ccm f key plaintext).data.length - 8 =
      (ccm.encrypt key f.nonce plaintext).length := by
    show (_ ++ _ : Bytes).length - 8 = _
    rw [List.length_append, ccm.mac_length, Nat.add_sub_cancel]
  rw [decrypt_bytes ccm _ key validateLlc verify hkey, hlength]
  have htake : (protect ccm f key plaintext).data.take
      (ccm.encrypt key f.nonce plaintext).length = ccm.encrypt key f.nonce plaintext :=
    List.take_left
  have hdrop : (protect ccm f key plaintext).data.drop
      (ccm.encrypt key f.nonce plaintext).length = ccm.mac key f.nonce (standardAad f) plaintext :=
    List.drop_left
  rw [htake, hdrop]
  rfl

/-- Whatever the cipher, the key and the plaintext, the receiver gets the plaintext. -/
def Delivers (f : QosDataFrame) (verify : Bool) : Prop :=
  ∀ (ccm : Ccm) (key plaintext : Bytes) (validateLlc : Bool), isAesKey key = true →
    decrypt ccm (protect ccm f key plaintext).bytes key validateLlc verify =
      .ok (withLlc validateLlc (some plaintext))

/-! ## Ciphers that tell the inputs apart -/

def markNonce (nonce : Bytes) : Ccm where
  encrypt _ n plaintext := plaintext.map (· + if n = nonce then 0 else 1)
  decrypt _ n ciphertext := ciphertext.map (· - if n = nonce then 0 else 1)
  mac _ _ _ _ := List.replicate 8 0
  decrypt_encrypt key n plaintext := by simp [Function.comp_def]
  mac_length _ _ _ _ := List.length_replicate

def markAad (aad : Bytes) : Ccm where
  encrypt _ _ plaintext := plaintext
  decrypt _ _ ciphertext := ciphertext
  mac _ _ a _ := List.replicate 8 (if a = aad then 0 else 1)
  decrypt_encrypt _ _ _ := rfl
  mac_length _ _ _ _ := List.length_replicate

theorem readNonce_eq_nonce_iff (f : QosDataFrame) : f.readNonce = f.nonce ↔ f.readTid = f.tid := by
  constructor
  · intro h
    exact (List.cons_eq_cons.mp h).1
  · intro h
    rw [QosDataFrame.readNonce, QosDataFrame.nonce, h]

theorem mask_iff (y : UInt8) : y &&& 0xc7 = y &&& 0x47 ↔ (byteBits y).getD 7 false = false := by
  have hall : ∀ n < 256, (UInt8.ofNat n &&& 0xc7 = UInt8.ofNat n &&& 0x47 ↔
      (byteBits (UInt8.ofNat n)).getD 7 false = false) := by decide +kernel
  simpa only [UInt8.ofNat_toNat] using hall y.toNat y.toNat_lt

theorem readAad_eq_standardAad_iff (f : QosDataFrame) (h : f.readTid = f.tid) :
    f.readAad = standardAad f ↔ f.address4 = [] ∧ f.htControl = [] := by
  have hht : f.htControl = [] ↔ f.flags &&& 0xc7 = f.flags &&& 0x47 := by
    rw [mask_iff, ← List.length_eq_zero_iff, f.htControl_length]
    cases (byteBits f.flags).getD 7 false <;> decide
  rw [hht, QosDataFrame.readAad, QosDataFrame.masked, standardAad, h]
  simp only [List.append_assoc, List.cons_append, List.nil_append, List.cons.injEq, true_and,
    List.append_cancel_left_eq]
  constructor
  · rintro ⟨hmask, haad⟩
    have hlength := congrArg List.length haad
    rw [List.length_append] at hlength
    exact ⟨List.length_eq_zero_iff.mp (by omega), hmask⟩
  · rintro ⟨hnone, hmask⟩
    exact ⟨hmask, by rw [hnone, List.nil_append]⟩

/-- The plaintext comes out exactly where the two halves of the traffic identifier's byte
agree and, for a receiver that looks at the code, there are no fourth address and no HT
control. -/
theorem delivers_iff (f : QosDataFrame) (verify : Bool) : Delivers f verify ↔
    f.readTid = f.tid ∧ (verify = true → f.address4 = [] ∧ f.htControl = []) := by
  have hkey : isAesKey (List.replicate 16 0) = true := by decide
  constructor
  · intro h
    have htid : f.readTid = f.tid := by
      have hnonce := h (markNonce f.nonce) (List.replicate 16 0) [0] false hkey
      rw [decrypt_protected _ _ _ _ _ _ hkey] at hnonce
      by_contra hne
      rw [← readNonce_eq_nonce_iff] at hne
      have hopened : (markNonce f.nonce).decrypt (List.replicate 16 0) f.readNonce
          ((markNonce f.nonce).encrypt (List.replicate 16 0) f.nonce [0]) = [255] := by
        simp only [markNonce, hne, List.map_cons, List.map_nil, if_true, if_false]
        decide
      simp only [hopened] at hnonce
      split_ifs at hnonce
      · exact absurd hnonce (by decide)
      · exact absurd hnonce (by decide)
    refine ⟨htid, ?_⟩
    rintro rfl
    have haad := h (markAad (standardAad f)) (List.replicate 16 0) [] false hkey
    rw [decrypt_protected _ _ _ _ _ _ hkey] at haad
    by_contra hne
    rw [← readAad_eq_standardAad_iff f htid] at hne
    have hmac : (markAad (standardAad f)).mac (List.replicate 16 0) f.readNonce f.readAad [] ≠
        (markAad (standardAad f)).mac (List.replicate 16 0) f.nonce (standardAad f) [] := by
      simp only [markAad, hne, if_true, if_false]
      decide
    rw [if_pos ⟨rfl, hmac⟩] at haad
    exact absurd haad (by decide)
  · rintro ⟨htid, hfour⟩ ccm key plaintext validateLlc hkey
    rw [decrypt_protected ccm f key plaintext validateLlc verify hkey,
      (readNonce_eq_nonce_iff f).mpr htid, ccm.decrypt_encrypt]
    refine if_neg ?_
    rintro ⟨hverify, hmac⟩
    rw [(readAad_eq_standardAad_iff f htid).mpr (hfour hverify)] at hmac
    exact hmac rfl

end InVehicle.WlanDecrypt
