import InVehicle.WlanPieces

/-!
# The WPA3 verdict on a beacon

A RSN element as it stands on air, the fields that the grammar reads from it, and
what they come to. The capabilities are read from the other end of the byte than
the word counts them from.
-/

set_option autoImplicit false

namespace InVehicle.WlanRsn
open InVehicle.Words InVehicle.Formats InVehicle.Formats.Format InVehicle.FormatLaws
open InVehicle.FormatRanges InVehicle.WlanEnums InVehicle.WlanElements
open InVehicle.WlanElementLaws InVehicle.WlanFraming InVehicle.WlanSecurity InVehicle.WlanBeacon
open InVehicle.WlanPieces

abbrev Pmkid := {b : Bytes // b.length = 16}

/-- A RSN element that reaches as far as the capabilities at least. Behind them
there may be the PMKIDs, and behind those the group management cipher. -/
structure RsnContent where
  version : UInt16
  group : UInt32
  pairwise : List UInt32
  akms : List UInt32
  capabilities : UInt16
  tail : Option (List Pmkid × Option UInt32)

namespace RsnContent

def suite (n : UInt32) : Bytes := byte.be 4 n.toNat

def tailBytes : Option (List Pmkid × Option UInt32) → Bytes
  | none => []
  | some (pmkids, management) =>
    byte.le 2 pmkids.length ++ (pmkids.flatMap Subtype.val ++ management.toList.flatMap suite)

variable (r : RsnContent)

def encode : Bytes :=
  byte.le 2 r.version.toNat ++ (suite r.group ++ (byte.le 2 r.pairwise.length ++
    (r.pairwise.flatMap suite ++ (byte.le 2 r.akms.length ++ (r.akms.flatMap suite ++
      (byte.le 2 r.capabilities.toNat ++ tailBytes r.tail))))))

def ciphers : List UInt32 :=
  r.group :: r.pairwise ++ (r.tail.bind Prod.snd).toList

theorem length_suites (ns : List UInt32) : (ns.flatMap suite).length = 4 * ns.length := by
  simp [suite, Nat.mul_comm]

theorem suite_parse {α : Type} {decode : ℕ → α} {encode : α → ℕ} (n : UInt32) (s : Bytes) :
    (int32ub.map decode encode).parse (suite n ++ s) = .ok (decode n.toNat, s) :=
  (map_parse _).mpr ⟨n.toNat, be_parse byte 4 _ s n.toNat_lt, rfl⟩

theorem cipher_parse (n : UInt32) (s : Bytes) :
    rsnCipherSuites.parse (suite n ++ s) = .ok (RSNCipherSuites.decode n.toNat, s) :=
  suite_parse n s

theorem akm_parse (n : UInt32) (s : Bytes) :
    akmSuites.parse (suite n ++ s) = .ok (AKMSuites.decode n.toNat, s) :=
  suite_parse n s

theorem capabilities_parse (x y : UInt8) (s : Bytes) : ∃ cap,
    rsnCapabilities.parse (x :: y :: s) = .ok (cap, s) ∧
      cap.managementFrameProtectionRequired = (byteBits x).getD 1 false ∧
      cap.managementFrameProtectionCapable = (byteBits x).getD 0 false := by
  have hall : rsnCapabilityBits.parseAll ([x, y].flatMap (unpack false)) = .ok _ := rfl
  exact ⟨_, (map_parse _).mpr ⟨_, bitStruct_parse (u := [x, y]) rfl hall, rfl⟩, rfl, rfl⟩

theorem count_parse {c : Bool} (hc : c = true) (n : ℕ) (s : Bytes) (hn : n < 256 ^ 2) :
    (countIf c).parse (byte.le 2 n ++ s) = .ok (n, s) := by
  subst hc
  exact le_parse byte 2 n s hn

theorem pmkids_parse (pmkids : List Pmkid) (s : Bytes) :
    (array pmkids.length (bytes 16)).parse (pmkids.flatMap Subtype.val ++ s) =
      .ok (pmkids.map Subtype.val, s) :=
  array_parse (fun x s => bytes_parse.mpr ⟨rfl, by rw [x.property]; rfl⟩) pmkids s

theorem length_pmkids (pmkids : List Pmkid) :
    (pmkids.flatMap Subtype.val).length = 16 * pmkids.length := by
  induction pmkids with
  | nil => rfl
  | cons x xs ih =>
    rw [List.flatMap_cons, List.length_append, x.property, ih, List.length_cons]
    omega

theorem length_encode : r.encode.length =
    12 + r.pairwise.length * 4 + r.akms.length * 4 + (tailBytes r.tail).length := by
  simp only [encode, List.length_append, Digit.length_le, length_suites, suite, Digit.length_be]
  omega

/-- The fields behind the capabilities, which begin at the 12th byte past the suites. -/
abbrev tailFormat (n len : ℕ) :=
  (countIf (14 + n ≤ len)).seq fun p => (array p (bytes 16)).pair <|
    optional (18 + n + p * 16 ≤ len) rsnCipherSuites

theorem tail_parse (tail : Option (List Pmkid × Option UInt32)) (n len : ℕ)
    (hlen : len = 12 + n + (tailBytes tail).length) (hlt : len < 256) : ∃ x,
    (tailFormat n len).parse (tailBytes tail) = .ok (x, []) ∧
      x.2.2 = (tail.bind Prod.snd).map fun c => RSNCipherSuites.decode c.toNat := by
  cases tail with
  | none =>
    have hcount : decide (14 + n ≤ len) = false := by
      rw [hlen]
      simp [tailBytes]
    have hcipher : decide (18 + n + 0 * 16 ≤ len) = false := by
      rw [hlen]
      simp [tailBytes]
    refine ⟨(0, [], none), (seq_parse _ _).mpr ⟨[], ?_, (seq_parse _ _).mpr ⟨[], rfl, ?_⟩⟩, rfl⟩
    · rw [hcount]
      rfl
    · rw [hcipher]
      rfl
  | some t =>
    obtain ⟨pmkids, management⟩ := t
    simp only [tailBytes, List.length_append, Digit.length_le, length_pmkids, length_suites] at hlen
    refine ⟨(pmkids.length, pmkids.map Subtype.val, management.map fun c =>
      RSNCipherSuites.decode c.toNat), (seq_parse _ _).mpr ⟨_, count_parse ?_ _ _ ?_,
      (seq_parse _ _).mpr ⟨_, pmkids_parse pmkids _, ?_⟩⟩, rfl⟩
    · exact decide_eq_true (by omega)
    · omega
    · cases management with
      | none =>
        rw [decide_eq_false (by simp at hlen; omega)]
        rfl
      | some c =>
        rw [decide_eq_true (by simp at hlen; omega)]
        exact (variant_parse rsnCipherSuites).mpr ⟨_, by simpa using cipher_parse c [], rfl⟩

def low : UInt8 := UInt8.ofNat r.capabilities.toNat

structure Reads (e : RsnElement) : Prop where
  suites : WlanSecurity.ciphers e = r.ciphers.map fun c => RSNCipherSuites.decode c.toNat
  akms : e.akmSuites = r.akms.map fun a => AKMSuites.decode a.toNat
  capabilities : ∃ cap, e.rsnCapabilities = some cap ∧
    cap.managementFrameProtectionRequired = (byteBits r.low).getD 1 false ∧
    cap.managementFrameProtectionCapable = (byteBits r.low).getD 0 false

theorem parse_encode (hlt : r.encode.length < 256) :
    ∃ e, (rsnElement r.encode.length).parse r.encode = .ok (e, []) ∧ r.Reads e := by
  have hlen := r.length_encode
  generalize hn : r.encode.length = len at hlen hlt ⊢
  obtain ⟨cap, hcap, hrequired, hcapable⟩ := capabilities_parse r.low
    (UInt8.ofNat (r.capabilities.toNat / 256)) (tailBytes r.tail)
  obtain ⟨⟨p, pmkids, management⟩, htail, hmanagement⟩ := tail_parse r.tail
    (r.pairwise.length * 4 + r.akms.length * 4) len (by omega) hlt
  refine ⟨_, (map_parse _).mpr ⟨(r.version.toNat, RSNCipherSuites.decode r.group.toNat,
    r.pairwise.length, r.pairwise.map (fun c => RSNCipherSuites.decode c.toNat), r.akms.length,
    r.akms.map (fun a => AKMSuites.decode a.toNat), some cap, p, pmkids, management), ?_, rfl⟩,
    ?_, rfl, cap, rfl, hrequired, hcapable⟩
  · refine (seq_parse _ _).mpr ⟨_, le_parse byte 2 _ _ r.version.toNat_lt, ?_⟩
    refine (seq_parse _ _).mpr ⟨_, cipher_parse r.group _, ?_⟩
    refine (seq_parse _ _).mpr ⟨_, count_parse (decide_eq_true (by omega)) _ _ (by omega), ?_⟩
    refine (seq_parse _ _).mpr ⟨_, array_parse cipher_parse r.pairwise _, ?_⟩
    refine (seq_parse _ _).mpr ⟨_, count_parse (decide_eq_true (by dsimp only; omega)) _ _
      (by omega), ?_⟩
    refine (seq_parse _ _).mpr ⟨_, array_parse akm_parse r.akms _, ?_⟩
    refine (seq_parse _ _).mpr ⟨tailBytes r.tail, ?_, ?_⟩
    · rw [decide_eq_true (by dsimp only; omega)]
      exact (variant_parse rsnCapabilities).mpr ⟨cap, hcap, rfl⟩
    · simpa only [tailFormat, Nat.add_assoc] using htail
  · simp only at hmanagement
    simp only [WlanSecurity.ciphers, ciphers, hmanagement]
    cases r.tail.bind Prod.snd with
    | none => simp
    | some c => simp

def bit (i : ℕ) : Bool := r.capabilities.toNat.testBit i

theorem low_getD (i : ℕ) (hi : i < 8) : (byteBits r.low).getD i false = r.bit i := by
  rw [byteBits, getD_le 8 _ i hi, low, UInt8.toNat_ofNat', bit, Nat.testBit_mod_two_pow]
  simp [hi]

/-- SAE without a pre-shared key, and no weak cipher. -/
def Strong : Prop :=
  0x000FAC08 ∈ r.akms ∧ 0x000FAC02 ∉ r.akms ∧ 0x000FAC06 ∉ r.akms ∧
    ∀ c ∈ r.ciphers, c ≠ 0x000FAC01 ∧ c ≠ 0x000FAC02 ∧ c ≠ 0x000FAC05

theorem akm_iff (n m : UInt32) (a : AKMSuites) (hm : AKMSuites.encode a = m.toNat)
    (ha : AKMSuites.decode (AKMSuites.encode a) = a) : AKMSuites.decode n.toNat = a ↔ n = m := by
  rw [decode_iff AKMSuites.encode_decode ha, hm, UInt32.toNat_inj]

theorem cipher_iff (n m : UInt32) (c : RSNCipherSuites) (hm : RSNCipherSuites.encode c = m.toNat)
    (hc : RSNCipherSuites.decode (RSNCipherSuites.encode c) = c) :
    RSNCipherSuites.decode n.toNat = c ↔ n = m := by
  rw [decode_iff RSNCipherSuites.encode_decode hc, hm, UInt32.toNat_inj]

theorem mustAuth_iff (n : UInt32) :
    AKMSuites.decode n.toNat ∈ wpa3MustAuth ↔ n = 0x000FAC08 := by
  rw [wpa3MustAuth, List.mem_singleton]
  exact akm_iff n _ _ rfl rfl

theorem badAuth_iff (n : UInt32) :
    AKMSuites.decode n.toNat ∈ wpa3BadAuth ↔ n = 0x000FAC02 ∨ n = 0x000FAC06 := by
  rw [wpa3BadAuth, List.mem_pair]
  exact or_congr (akm_iff n _ _ rfl rfl) (akm_iff n _ _ rfl rfl)

theorem badCipher_iff (n : UInt32) : RSNCipherSuites.decode n.toNat ∈ wpa3BadCiphers ↔
    n = 0x000FAC01 ∨ n = 0x000FAC02 ∨ n = 0x000FAC05 := by
  rw [wpa3BadCiphers, List.mem_cons, List.mem_pair]
  exact or_congr (cipher_iff n _ _ rfl rfl)
    (or_congr (cipher_iff n _ _ rfl rfl) (cipher_iff n _ _ rfl rfl))

/-- The classification looks at the bits 1 and 0, where the word has the bits 6
and 7 for the protection of management frames. -/
theorem wpa3_of_reads (e : RsnElement) (he : r.Reads e) :
    rsnSecurity e = .wpa3 ↔ r.Strong ∧ r.bit 1 ∧ r.bit 0 := by
  obtain ⟨hciphers, hakms, cap, hcap, hrequired, hcapable⟩ := he
  rw [rsnSecurity_wpa3 e cap hcap, hrequired, hcapable, r.low_getD 1 (by omega),
    r.low_getD 0 (by omega), hciphers, hakms]
  simp only [List.mem_map, exists_exists_and_eq_and, forall_exists_index, and_imp,
    forall_apply_eq_imp_iff₂, mustAuth_iff, badAuth_iff, badCipher_iff, exists_eq_right, not_or,
    Strong]
  have hbad : (∀ a ∈ r.akms, ¬ a = 0x000FAC02 ∧ ¬ a = 0x000FAC06) ↔
      0x000FAC02 ∉ r.akms ∧ 0x000FAC06 ∉ r.akms := by
    constructor
    · exact fun h => ⟨fun hm => (h _ hm).1 rfl, fun hm => (h _ hm).2 rfl⟩
    · rintro ⟨h2, h6⟩ a ha
      exact ⟨fun h => h2 (h ▸ ha), fun h => h6 (h ▸ ha)⟩
  rw [hbad]
  constructor
  · rintro ⟨h1, h0, hsae, ⟨h2, h6⟩, hweak⟩
    exact ⟨⟨hsae, h2, h6, hweak⟩, h1, h0⟩
  · rintro ⟨⟨hsae, h2, h6, hweak⟩, h1, h0⟩
    exact ⟨h1, h0, hsae, ⟨h2, h6⟩, hweak⟩

def element : Bytes := 48 :: UInt8.ofNat r.encode.length :: r.encode

theorem element_read (hlt : r.encode.length < 256) : ∃ v e,
    informationElement.parse r.element = .ok (v, []) ∧ v.info = some (.rsn e) ∧ r.Reads e := by
  obtain ⟨e, he, hreads⟩ := r.parse_encode hlt
  have hlen := toNat_ofNat_length hlt
  have hpos := r.length_encode
  refine ⟨⟨.rsn, r.encode.length, none, some (.rsn e)⟩, e, ?_, rfl, hreads⟩
  refine (informationElement_parse _ _ _ _ _).mpr ⟨(none, some (.rsn e)), ?_, by rw [hlen]; rfl⟩
  refine (seq_parse _ _).mpr ⟨r.encode, rfl, ?_⟩
  rw [hlen, decide_eq_true (by omega)]
  exact (variant_parse (ieElements .rsn r.encode.length)).mpr
    ⟨_, (variant_parse (rsnElement r.encode.length)).mpr ⟨e, he, rfl⟩, rfl⟩

end RsnContent

/-- A beacon with these elements in front of its RSN element and behind it. -/
def rsnFrame (h : Beacon) (pre : List Bytes) (r : RsnContent) (post : List Bytes) (mme : Bytes) :
    Bytes :=
  h.frame ((pre ++ r.element :: post).flatten ++ mme)

theorem securityOf_rsnFrame (h : Beacon) (r : RsnContent) (hr : r.encode.length < 256)
    (pre post : List Bytes) (hpre : ∀ p ∈ pre, Whole informationElement p)
    (hpost : ∀ p ∈ post, Whole informationElement p) (hfirst : firstRsn pre = none) (mme : Bytes)
    (hmme : ∀ v s, informationElement.parse mme ≠ .ok (v, s)) : ∃ e, r.Reads e ∧
      securityOf (rsnFrame h pre r post mme) = classify h.privacy
        (scan (firstVendor (pre ++ post))) (.ok [rsnSecurity e]) := by
  obtain ⟨v, e, hv, hinfo, hreads⟩ := r.element_read hr
  obtain ⟨ps, hfst, hread, hrange⟩ := range_flatten consumes_informationElement
    (pre ++ r.element :: post) fun p hp => by
      rcases List.mem_append.mp hp with hp | hp
      · exact hpre p hp
      · rcases List.mem_cons.mp hp with rfl | hp
        · exact ⟨v, hv⟩
        · exact hpost p hp
  have hend : informationElement.range mme = ([], mme) := by
    cases hm : informationElement.parse mme with
    | error err => exact range_error _ hm
    | ok q => exact absurd hm (hmme q.1 q.2)
  have hvendor : firstVendor (pre ++ r.element :: post) = firstVendor (pre ++ post) := by
    rw [firstVendor, firstVendor, List.find?_append, List.find?_append]
    rfl
  have hrsn : firstRsn (pre ++ r.element :: post) = some r.element := by
    rw [firstRsn, List.find?_append, ← firstRsn, hfirst]
    rfl
  have hfound : rsnOf ((ps.map Prod.snd).find? fun e => e.id = .rsn) = .ok [rsnSecurity e] := by
    rw [← hfst, firstRsn, List.find?_map] at hrsn
    obtain ⟨q, hq, hqr⟩ := Option.map_eq_some_iff.mp hrsn
    have hqv := hread q (List.mem_of_find?_eq_some hq)
    rw [hqr, hv] at hqv
    cases hqv
    have hq : (ps.find? fun q => isRsn q.1) = some q := hq
    rw [find_rsn ps hread, hq]
    simp only [Option.map_some, rsnOf, hinfo]
  refine ⟨e, hreads, ?_⟩
  rw [rsnFrame, h.securityOf_frame, hrange, hend, List.append_nil, verdict, anyWpa_read ps hread,
    hfst, hvendor, hfound]

theorem wpa3_classify (privacy : Bool) (v : Option Bytes) (e : RsnElement) :
    (∃ l, classify privacy (scan v) (.ok [rsnSecurity e]) = .ok l ∧ .wpa3 ∈ l) ↔
      v ≠ some emptyVendor ∧ rsnSecurity e = .wpa3 := by
  rcases scan_cases v with rfl | rfl | ⟨p, rfl, hp, hv⟩
  · simp [scan_none, classify_rsn, eq_comm]
  · simp [scan_emptyVendor, classify_error]
  · simp [hv, hp, classify_rsn, eq_comm]

/-- The verdict is the one that the capabilities word asks for exactly if the two
bits that are read agree with the two that are meant, where the suites leave it
to them. -/
theorem wpa3_iff (h : Beacon) (r : RsnContent) (hr : r.encode.length < 256)
    (pre post : List Bytes) (hpre : ∀ p ∈ pre, Whole informationElement p)
    (hpost : ∀ p ∈ post, Whole informationElement p) (hfirst : firstRsn pre = none) (mme : Bytes)
    (hmme : ∀ v s, informationElement.parse mme ≠ .ok (v, s)) :
    ((∃ l, securityOf (rsnFrame h pre r post mme) = .ok l ∧ .wpa3 ∈ l) ↔
        (r.bit 6 ∧ r.bit 7) ∧ r.Strong) ↔
      (r.Strong → (r.bit 0 ∧ r.bit 1 ∧ firstVendor (pre ++ post) ≠ some emptyVendor ↔
        r.bit 6 ∧ r.bit 7)) := by
  obtain ⟨e, he, hsecurity⟩ := securityOf_rsnFrame h r hr pre post hpre hpost hfirst mme hmme
  rw [hsecurity, wpa3_classify, r.wpa3_of_reads e he]
  have hread : firstVendor (pre ++ post) ≠ some emptyVendor ∧ r.bit 1 ∧ r.bit 0 ↔
      r.bit 0 ∧ r.bit 1 ∧ firstVendor (pre ++ post) ≠ some emptyVendor :=
    ⟨fun ⟨hv, h1, h0⟩ => ⟨h0, h1, hv⟩, fun ⟨h0, h1, hv⟩ => ⟨hv, h1, h0⟩⟩
  by_cases hs : r.Strong
  · simp only [hs, true_imp_iff, and_true, true_and, hread]
  · simp only [hs, false_imp_iff, and_false, false_and]

/-- An access point for WPA3 only: SAE, CCMP, protection of management frames
capable and required. -/
def wpa3Content : RsnContent where
  version := 1
  group := 0x000FAC04
  pairwise := [0x000FAC04]
  akms := [0x000FAC08]
  capabilities := 0x00C0
  tail := none

def bothContent : RsnContent := { wpa3Content with capabilities := 0x00C3 }

theorem parse_nil (v : InformationElement) (s : Bytes) :
    informationElement.parse [] ≠ .ok (v, s) := by
  rintro ⟨⟩

/-- Between the name of the network and its rates. -/
theorem wpa3_protected :
    let name : Bytes := [0, 1, 0x41]
    let rates : Bytes := [1, 1, 0x82]
    securityOf (rsnFrame accessPoint [name] bothContent [rates] []) = .ok [.wpa3] ∧
      (bothContent.bit 6 ∧ bothContent.bit 7) ∧ bothContent.Strong ∧
      ((∃ l, securityOf (rsnFrame accessPoint [name] bothContent [rates] []) = .ok l ∧
        .wpa3 ∈ l) ↔ (bothContent.bit 6 ∧ bothContent.bit 7) ∧ bothContent.Strong) := by
  intro name rates
  have hname : ∀ p ∈ [name], Whole informationElement p :=
    List.forall_mem_singleton.mpr ⟨_, rfl⟩
  have hrates : ∀ p ∈ [rates], Whole informationElement p :=
    List.forall_mem_singleton.mpr ⟨_, rfl⟩
  have hstrong : bothContent.Strong := by
    simp [RsnContent.Strong, RsnContent.ciphers, bothContent, wpa3Content]
  exact ⟨by decide +kernel, by decide, hstrong,
    (wpa3_iff accessPoint bothContent (by decide) [name] [rates] hname hrates rfl []
      parse_nil).mpr fun _ => by decide +kernel⟩

theorem wpa3_missed : ¬ ((∃ l, securityOf (rsnFrame accessPoint [] wpa3Content [] []) = .ok l ∧
    .wpa3 ∈ l) ↔ (wpa3Content.bit 6 ∧ wpa3Content.bit 7) ∧ wpa3Content.Strong) := by
  have hverdict : securityOf (rsnFrame accessPoint [] wpa3Content [] []) = .ok [.wpa2] := by
    decide +kernel
  have hword : (wpa3Content.bit 6 ∧ wpa3Content.bit 7) ∧ wpa3Content.Strong :=
    ⟨by decide, by simp [RsnContent.Strong, RsnContent.ciphers, wpa3Content]⟩
  intro h
  obtain ⟨l, hl, hmem⟩ := h.mpr hword
  rw [hverdict] at hl
  cases hl
  simp at hmem

end InVehicle.WlanRsn
