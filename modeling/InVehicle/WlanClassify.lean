import InVehicle.WlanPieces

/-!
# The rules of the classification

What `security` gives for a parsed beacon or probe response, against the rules that
its comments state for WPA3 and for the transition to it.
-/

set_option autoImplicit false

namespace InVehicle.WlanClassify
open InVehicle.Words InVehicle.Formats InVehicle.Formats.Format InVehicle.FormatLaws
open InVehicle.FormatRanges InVehicle.WlanEnums InVehicle.WlanElements
open InVehicle.WlanElementLaws InVehicle.WlanFraming InVehicle.WlanFrame
open InVehicle.WlanSecurity InVehicle.WlanBeacon InVehicle.WlanPieces

/-! ## The elements as they are parsed -/

structure Shaped (e : InformationElement) : Prop where
  empty : e.len = 0 → e.info = none
  rsn : e.id = .rsn → 0 < e.len → ∃ r, e.info = some (.rsn r)
  vendor : e.id = .vendorSpecific → 0 < e.len → ∃ oui content,
    e.info = some (.vendorSpecific oui content) ∧
      (oui = .microsoftCorp → ∃ type fields, content = .microsoft type fields)

section Shape
variable {v : InformationElement} {b s : Bytes}

theorem vendorContent_shaped {len : ℕ} {oui : VendorOui} {content : VendorSpecificContent}
    (h : (vendorSpecificContent len oui).parse b = .ok (content, s)) (houi : oui = .microsoftCorp) :
    ∃ type fields, content = .microsoft type fields := by
  rw [vendorSpecificContent, if_pos houi] at h
  obtain ⟨p, -, rfl⟩ := (variant_parse _).mp h
  exact ⟨p.1, p.2, rfl⟩

theorem element_shaped (h : informationElement.parse b = .ok (v, s)) : Shaped v := by
  obtain ⟨x, y, c, rfl⟩ := informationElement_shape h
  obtain ⟨⟨extension, info⟩, ht, rfl⟩ := (informationElement_parse _ _ _ _ _).mp h
  obtain ⟨r, -, ht⟩ := (seq_parse _ _).mp ht
  have hpresent (hid : IEType.decode x.toNat ≠ .extendedId) (hlen : 0 < y.toNat) :
      ∃ i, (ieElements (IEType.decode x.toNat) y.toNat).parse r = .ok (i, s) ∧ info = some i := by
    rw [decide_eq_true hlen, if_neg hid] at ht
    obtain ⟨i, hi, hinfo⟩ := (variant_parse _).mp ht
    exact ⟨i, hi, hinfo.symm⟩
  refine ⟨fun hlen => ?_, fun hid hlen => ?_, fun hid hlen => ?_⟩
  · rw [decide_eq_false (Nat.not_lt.mpr hlen.le)] at ht
    cases ht
    rfl
  · change IEType.decode x.toNat = .rsn at hid
    obtain ⟨i, hi, rfl⟩ := hpresent (by rw [hid]; decide) hlen
    rw [hid] at hi
    obtain ⟨e, -, rfl⟩ := (variant_parse _).mp hi
    exact ⟨e, rfl⟩
  · change IEType.decode x.toNat = .vendorSpecific at hid
    obtain ⟨i, hi, rfl⟩ := hpresent (by rw [hid]; decide) hlen
    rw [hid] at hi
    change (WlanElements.vendorSpecificElement y.toNat).parse r = .ok (i, s) at hi
    obtain ⟨⟨oui, content⟩, hcontent, rfl⟩ := (variant_parse _).mp hi
    obtain ⟨r', -, hcontent⟩ := (seq_parse _ _).mp hcontent
    exact ⟨oui, content, rfl, vendorContent_shaped hcontent⟩

theorem range_shaped (b : Bytes) :
    ∀ e ∈ (informationElement.range b).1.map Prod.snd, Shaped e := by
  intro e he
  obtain ⟨p, hp, rfl⟩ := List.mem_map.mp he
  exact element_shaped (range_read consumes_informationElement _ b rfl p hp)

theorem variant_unannounced {α : Type} {f : Format UInt8 α} {decode : α → FrameBody}
    {encode : FrameBody → Option α} {body : FrameBody}
    (h : (f.variant decode encode).parse b = .ok (body, s))
    (hnone : ∀ a, announced (decode a) = none) : announced body = none := by
  obtain ⟨a, -, rfl⟩ := (variant_parse f).mp h
  exact hnone a

theorem data_unannounced {fc : FrameControl} {t : DataSubtype} {body : FrameBody}
    (h : (dataSubtypeParsers fc t).parse b = .ok (body, s)) : announced body = none := by
  unfold dataSubtypeParsers at h
  split at h <;> exact variant_unannounced h fun _ => rfl

theorem management_elements {t : ManagementSubtype} {body : FrameBody} {cap : CapabilityInfo}
    {es : List InformationElement} (h : (managementSubtypeParsers t).parse b = .ok (body, s))
    (hbody : announced body = some (cap, es)) :
    ∃ b', es = (informationElement.range b').1.map Prod.snd := by
  have hother (hnone : announced body = none) :
      ∃ b', es = (informationElement.range b').1.map Prod.snd := by
    rw [hnone] at hbody
    cases hbody
  cases t with
  | beacon =>
    change WlanFrame.beacon.parse b = _ at h
    obtain ⟨⟨t, i, c, es', mme⟩, hfields, rfl⟩ := (variant_parse _).mp h
    obtain ⟨b₁, -, hfields⟩ := (seq_parse _ _).mp hfields
    obtain ⟨b₂, -, hfields⟩ := (seq_parse _ _).mp hfields
    obtain ⟨b₃, -, hfields⟩ := (seq_parse _ _).mp hfields
    obtain ⟨b₄, helements, -⟩ := (seq_parse _ _).mp hfields
    cases helements
    cases hbody
    exact ⟨b₃, rfl⟩
  | probeResponse =>
    change probeResponse.parse b = _ at h
    obtain ⟨⟨t, i, c, es'⟩, hfields, rfl⟩ := (variant_parse _).mp h
    obtain ⟨b₁, -, hfields⟩ := (seq_parse _ _).mp hfields
    obtain ⟨b₂, -, hfields⟩ := (seq_parse _ _).mp hfields
    obtain ⟨b₃, -, helements⟩ := (seq_parse _ _).mp hfields
    cases helements
    cases hbody
    exact ⟨b₃, rfl⟩
  | _ =>
    simp only [managementSubtypeParsers, associationRequest, associationResponse,
      reassociationRequest, probeRequest, disassociation, authentication, action, greedyBody] at h
    exact hother (variant_unannounced h fun _ => rfl)

theorem body_elements {fc : FrameControl} {body : FrameBody} {cap : CapabilityInfo}
    {es : List InformationElement} (h : (frameTypeParsers fc).parse b = .ok (body, s))
    (hbody : announced body = some (cap, es)) :
    ∃ b', es = (informationElement.range b').1.map Prod.snd := by
  unfold frameTypeParsers at h
  split at h
  · exact management_elements h hbody
  · rw [data_unannounced h] at hbody
    cases hbody
  · rw [variant_unannounced h fun _ => rfl] at hbody
    cases hbody

theorem frame_body {frame : WifiFrame} {body : FrameBody}
    (h : wifiFrameHeader.parse b = .ok (frame, s)) (hframe : frame.frameBody = some body) :
    ∃ fc b', (frameTypeParsers fc).parse b' = .ok (body, s) := by
  obtain ⟨⟨fc, duration, a₁, a₂, a₃, control, sequence, parsed⟩, hfields, rfl⟩ := (map_parse _).mp h
  obtain ⟨b₁, -, hfields⟩ := (seq_parse _ _).mp hfields
  obtain ⟨b₂, -, hfields⟩ := (seq_parse _ _).mp hfields
  obtain ⟨b₃, -, hfields⟩ := (seq_parse _ _).mp hfields
  obtain ⟨b₄, -, hfields⟩ := (seq_parse _ _).mp hfields
  obtain ⟨b₅, -, hfields⟩ := (seq_parse _ _).mp hfields
  obtain ⟨b₆, -, hfields⟩ := (seq_parse _ _).mp hfields
  obtain ⟨b₇, -, hparsed⟩ := (seq_parse _ _).mp hfields
  change parsed = some body at hframe
  subst hframe
  refine ⟨fc, b₇, ?_⟩
  by_cases hc : fc.type = .control
  · simp only [hc, ne_eq, not_true_eq_false, decide_false] at hparsed
    cases hparsed
  · simp only [hc, ne_eq, not_false_eq_true, decide_true] at hparsed
    obtain ⟨v, hv, hsome⟩ := (variant_parse _).mp hparsed
    cases hsome
    exact hv

theorem packet_shaped {p : WiFiPacket} (h : init b = .ok p) {body : FrameBody}
    {cap : CapabilityInfo} {es : List InformationElement}
    (hframe : p.parsedData.frameBody = some body) (hbody : announced body = some (cap, es)) :
    p = ⟨p.parsedData, parseIeElements p.parsedData⟩ ∧ ∀ e ∈ es, Shaped e := by
  obtain ⟨v, s, hv, rfl⟩ := init_eq_ok.mp h
  refine ⟨rfl, ?_⟩
  obtain ⟨fc, b', hb'⟩ := frame_body hv hframe
  obtain ⟨b'', rfl⟩ := body_elements hb' hbody
  exact range_shaped b''

end Shape

/-! ## The rules -/

def isMicrosoftWpa (e : InformationElement) : Bool :=
  e.id = .vendorSpecific && match e.info with
    | some (.vendorSpecific .microsoftCorp (.microsoft .wpa _)) => true
    | _ => false

def firstRsnElement (es : List InformationElement) : Option InformationElement :=
  es.find? fun e => e.id = .rsn

section Rules
variable (rsn : RsnElement)

/-- Protection of the management frames is required and capable, with SAE, without a
pre-shared key and without WEP and TKIP. -/
def Wpa3Only : Prop :=
  (∃ cap, rsn.rsnCapabilities = some cap ∧
    cap.managementFrameProtectionRequired ∧ cap.managementFrameProtectionCapable) ∧
  .ieeeSae ∈ rsn.akmSuites ∧ .ieeePsk ∉ rsn.akmSuites ∧ .ieeePskSha256 ∉ rsn.akmSuites ∧
  ∀ cipher ∈ ciphers rsn, cipher ≠ .ieeeWep40 ∧ cipher ≠ .ieeeTkip ∧ cipher ≠ .ieeeWep104

def CapableOnly : Prop :=
  ∃ cap, rsn.rsnCapabilities = some cap ∧
    ¬ cap.managementFrameProtectionRequired ∧ cap.managementFrameProtectionCapable

def Wpa3Transition : Prop :=
  CapableOnly rsn ∧ .ieeePsk ∈ rsn.akmSuites ∧ .ieeeSae ∈ rsn.akmSuites

end Rules

/-- What the list of a frame with these elements has to be. -/
structure Follows (privacy : Bool) (es : List InformationElement) (l : List WiFiSecurity) :
    Prop where
  wpa : .wpa ∈ l ↔ ∃ e ∈ es, isMicrosoftWpa e
  rsnPresent : (∃ e ∈ es, e.id = .rsn) → ∃! v, v ∈ l ∧ (v = .wpa3 ∨ v = .wpa3Tran ∨ v = .wpa2)
  rsnAbsent : (∀ e ∈ es, e.id ≠ .rsn) → .wpa3 ∉ l ∧ .wpa3Tran ∉ l ∧ .wpa2 ∉ l
  wpa3 : .wpa3 ∈ l ↔ ∃ e, firstRsnElement es = some e ∧ ∃ rsn, e.info = some (.rsn rsn) ∧
    Wpa3Only rsn
  wpa3Tran : .wpa3Tran ∈ l ↔ ∃ e, firstRsnElement es = some e ∧ ∃ rsn,
    e.info = some (.rsn rsn) ∧ ¬ Wpa3Only rsn ∧ Wpa3Transition rsn
  neither : (∀ e ∈ es, ¬ isMicrosoftWpa e) → (∀ e ∈ es, e.id ≠ .rsn) →
    l = [if privacy then .wep else .open]

/-- No vendor element in front of the first WPA element is empty. -/
def VendorsRead (es : List InformationElement) : Prop :=
  ∀ e ∈ es.takeWhile fun e => !isMicrosoftWpa e, e.id = .vendorSpecific → e.len ≠ 0

/-- The RSN element is not empty, and where it is capable only of protection it has
both of PSK and SAE or none of them. -/
def RsnRead (es : List InformationElement) : Prop :=
  ∀ e, firstRsnElement es = some e → e.len ≠ 0 ∧ ∀ rsn, e.info = some (.rsn rsn) →
    CapableOnly rsn → (.ieeePsk ∈ rsn.akmSuites ↔ .ieeeSae ∈ rsn.akmSuites)

section Verdict
variable {rsn : RsnElement} {es : List InformationElement} {e : InformationElement}

theorem wpa3BadCiphers_iff (c : RSNCipherSuites) :
    c ∉ wpa3BadCiphers ↔ c ≠ .ieeeWep40 ∧ c ≠ .ieeeTkip ∧ c ≠ .ieeeWep104 := by
  simp [wpa3BadCiphers]

theorem wpa3BadAuth_iff (akms : List AKMSuites) :
    (∀ akm ∈ akms, akm ∉ wpa3BadAuth) ↔ .ieeePsk ∉ akms ∧ .ieeePskSha256 ∉ akms := by
  constructor
  · intro h
    exact ⟨fun hmem => h _ hmem (by decide), fun hmem => h _ hmem (by decide)⟩
  · rintro ⟨hpsk, hsha⟩ akm hmem hbad
    obtain rfl | rfl := List.mem_pair.mp hbad
    · exact hpsk hmem
    · exact hsha hmem

theorem wpa3TranMustAuth_iff (akms : List AKMSuites) :
    (∃ akm ∈ akms, akm ∈ wpa3TranMustAuth) ↔ .ieeePsk ∈ akms ∨ .ieeeSae ∈ akms := by
  simp [wpa3TranMustAuth, or_and_right, exists_or, and_comm]

theorem rsnSecurity_wpa3_iff : rsnSecurity rsn = .wpa3 ↔ Wpa3Only rsn := by
  cases hcap : rsn.rsnCapabilities with
  | none => simp [rsnSecurity, hcap, Wpa3Only]
  | some cap =>
    rw [rsnSecurity_wpa3 rsn cap hcap, wpa3BadAuth_iff]
    simp [Wpa3Only, hcap, wpa3MustAuth, wpa3BadCiphers_iff, and_assoc]

theorem rsnSecurity_wpa3Tran_iff : rsnSecurity rsn = .wpa3Tran ↔
    CapableOnly rsn ∧ (.ieeePsk ∈ rsn.akmSuites ∨ .ieeeSae ∈ rsn.akmSuites) := by
  cases hcap : rsn.rsnCapabilities with
  | none => simp [rsnSecurity, hcap, CapableOnly]
  | some cap =>
    have hcapable : CapableOnly rsn ↔
        ¬ cap.managementFrameProtectionRequired ∧ cap.managementFrameProtectionCapable := by
      simp [CapableOnly, hcap]
    rw [hcapable, ← wpa3TranMustAuth_iff]
    simp only [rsnSecurity, hcap]
    split_ifs with h h'
    · exact iff_of_false (by decide) fun hc => hc.1.1 h.1
    · exact iff_of_true rfl ⟨⟨h'.1, h'.2.1⟩, h'.2.2⟩
    · exact iff_of_false (by decide) fun hc => h' ⟨hc.1.1, hc.1.2, hc.2⟩

theorem not_wpa3Only_of_capableOnly (h : CapableOnly rsn) : ¬ Wpa3Only rsn := by
  obtain ⟨cap, hcap, hrequired, -⟩ := h
  rintro ⟨⟨cap', hcap', hrequired', -⟩, -⟩
  cases hcap.symm.trans hcap'
  exact hrequired hrequired'

/-! ## The vendor elements -/

theorem isMicrosoftWpa_other (h : e.id ≠ .vendorSpecific) : isMicrosoftWpa e = false := by
  rw [isMicrosoftWpa, decide_eq_false h, Bool.false_and]

theorem isMicrosoftWpa_empty (h : Shaped e) (hlen : e.len = 0) : isMicrosoftWpa e = false := by
  rw [isMicrosoftWpa, h.empty hlen, Bool.and_false]

theorem isWpa_empty (h : Shaped e) (hlen : e.len = 0) : isWpa e = .error .attributeError := by
  rw [isWpa, h.empty hlen]

theorem isWpa_shaped (h : Shaped e) (hid : e.id = .vendorSpecific) (hlen : e.len ≠ 0) :
    isWpa e = .ok (isMicrosoftWpa e) := by
  obtain ⟨oui, content, hinfo, hmicrosoft⟩ := h.vendor hid (Nat.pos_of_ne_zero hlen)
  rw [isMicrosoftWpa, decide_eq_true hid, Bool.true_and, hinfo]
  by_cases houi : oui = .microsoftCorp
  · obtain ⟨type, fields, rfl⟩ := hmicrosoft houi
    subst houi
    rw [isWpa, hinfo]
    cases type <;> rfl
  · rw [isWpa_other hinfo houi]
    cases oui with
    | microsoftCorp => exact absurd rfl houi
    | _ => rfl

theorem vendorsRead_wpa (h : isMicrosoftWpa e) (es : List InformationElement) :
    VendorsRead (e :: es) := by
  rw [VendorsRead, List.takeWhile_cons_of_neg (by simpa using h)]
  exact fun v hv => nomatch hv

theorem vendorsRead_cons (h : isMicrosoftWpa e = false) (es : List InformationElement) :
    VendorsRead (e :: es) ↔ (e.id = .vendorSpecific → e.len ≠ 0) ∧ VendorsRead es := by
  rw [VendorsRead, List.takeWhile_cons_of_pos (by simpa using h), List.forall_mem_cons]
  rfl

theorem anyWpa_shaped (h : ∀ e ∈ es, Shaped e) :
    (VendorsRead es ∧ anyWpa (es.filter fun e => e.id = .vendorSpecific) =
      .ok (es.any isMicrosoftWpa)) ∨
    (¬ VendorsRead es ∧ anyWpa (es.filter fun e => e.id = .vendorSpecific) =
      .error .attributeError) := by
  induction es with
  | nil => exact .inl ⟨fun e he => (nomatch he), rfl⟩
  | cons e es ih =>
    obtain ⟨he, hes⟩ := List.forall_mem_cons.mp h
    by_cases hid : e.id = .vendorSpecific
    · rw [List.filter_cons_of_pos (by simpa using hid), anyWpa, List.any_cons]
      by_cases hlen : e.len = 0
      · rw [vendorsRead_cons (isMicrosoftWpa_empty he hlen), isWpa_empty he hlen]
        exact .inr ⟨fun hread => hread.1 hid hlen, rfl⟩
      · rw [isWpa_shaped he hid hlen]
        cases hwpa : isMicrosoftWpa e with
        | true => exact .inl ⟨vendorsRead_wpa hwpa es, rfl⟩
        | false =>
          rw [vendorsRead_cons hwpa, and_iff_right fun _ => hlen]
          exact ih hes
    · have hwpa := isMicrosoftWpa_other hid
      rw [List.filter_cons_of_neg (by simpa using hid), List.any_cons, hwpa, Bool.false_or,
        vendorsRead_cons hwpa, and_iff_right fun hvendor => absurd hvendor hid]
      exact ih hes

/-! ## The list that is returned -/

variable {privacy : Bool}

theorem mem_found {v : WiFiSecurity} (hv : v ≠ .wpa) (wpa : Bool) :
    v ∈ (if wpa then [.wpa] else []) ++ [rsnSecurity rsn] ↔ rsnSecurity rsn = v := by
  cases wpa <;> simp [hv, eq_comm]

theorem wpa_mem_found (wpa : Bool) :
    .wpa ∈ (if wpa then [.wpa] else []) ++ [rsnSecurity rsn] ↔ wpa := by
  have hne : rsnSecurity rsn ≠ .wpa := by
    rcases rsnSecurity_cases rsn with h | h | h <;> rw [h] <;> decide
  cases wpa <;> simp [hne.symm]

theorem follows_rsn (hfirst : firstRsnElement es = some e) (hinfo : e.info = some (.rsn rsn)) :
    Follows privacy es ((if es.any isMicrosoftWpa then [.wpa] else []) ++ [rsnSecurity rsn]) ↔
      (CapableOnly rsn → (.ieeePsk ∈ rsn.akmSuites ↔ .ieeeSae ∈ rsn.akmSuites)) := by
  have hcount (P : RsnElement → Prop) : (∃ e', firstRsnElement es = some e' ∧
      ∃ rsn', e'.info = some (.rsn rsn') ∧ P rsn') ↔ P rsn := by
    simp [hfirst, hinfo]
  have hpresent : ∃ e ∈ es, e.id = .rsn :=
    ⟨e, List.mem_of_find?_eq_some hfirst, by simpa using List.find?_some hfirst⟩
  have htran : .wpa3Tran ∈ (if es.any isMicrosoftWpa then [.wpa] else []) ++ [rsnSecurity rsn] ↔
      CapableOnly rsn ∧ (.ieeePsk ∈ rsn.akmSuites ∨ .ieeeSae ∈ rsn.akmSuites) :=
    (mem_found (by decide) _).trans rsnSecurity_wpa3Tran_iff
  constructor
  · intro h hcapable
    have hrule := htran.symm.trans (h.wpa3Tran.trans (hcount _))
    constructor
    · exact fun hpsk => (hrule.mp ⟨hcapable, .inl hpsk⟩).2.2.2
    · exact fun hsae => (hrule.mp ⟨hcapable, .inr hsae⟩).2.2.1
  · intro h
    refine ⟨?_, fun _ => ⟨rsnSecurity rsn, ?_, ?_⟩, ?_, ?_, ?_, ?_⟩
    · rw [wpa_mem_found, List.any_eq_true]
    · refine ⟨List.mem_append_right _ List.mem_cons_self, ?_⟩
      rcases rsnSecurity_cases rsn with h | h | h <;> simp [h]
    · rintro v ⟨hmem, hv⟩
      refine ((mem_found ?_ _).mp hmem).symm
      rcases hv with rfl | rfl | rfl <;> decide
    · exact fun habsent => absurd hpresent (by simpa using habsent)
    · exact ((mem_found (by decide) _).trans rsnSecurity_wpa3_iff).trans (hcount _).symm
    · refine htran.trans (Iff.trans ?_ (hcount _).symm)
      constructor
      · rintro ⟨hcapable, hakm⟩
        refine ⟨not_wpa3Only_of_capableOnly hcapable, hcapable, ?_⟩
        rcases hakm with hpsk | hsae
        · exact ⟨hpsk, (h hcapable).mp hpsk⟩
        · exact ⟨(h hcapable).mpr hsae, hsae⟩
      · rintro ⟨-, hcapable, hpsk, -⟩
        exact ⟨hcapable, .inl hpsk⟩
    · exact fun _ habsent => absurd hpresent (by simpa using habsent)

theorem follows_no_rsn (hfirst : firstRsnElement es = none) : Follows privacy es
    (if es.any isMicrosoftWpa then [.wpa] else [if privacy then .wep else .open]) := by
  have habsent : ∀ e ∈ es, e.id ≠ .rsn := by
    simpa [firstRsnElement] using hfirst
  have hcount (P : RsnElement → Prop) : ¬ ∃ e, firstRsnElement es = some e ∧
      ∃ rsn, e.info = some (.rsn rsn) ∧ P rsn := by
    simp [hfirst]
  have hrsn (h : ∃ e ∈ es, e.id = .rsn) : False := by
    obtain ⟨e, he, hid⟩ := h
    exact habsent e he hid
  cases hwpa : es.any isMicrosoftWpa with
  | true =>
    have hsome := List.any_eq_true.mp hwpa
    rw [if_pos rfl]
    refine ⟨iff_of_true List.mem_cons_self hsome, fun h => (hrsn h).elim, fun _ => by decide,
      iff_of_false (by decide) (hcount _), iff_of_false (by decide) (hcount _), fun hnone => ?_⟩
    obtain ⟨e, he, hw⟩ := hsome
    exact absurd hw (hnone e he)
  | false =>
    have hnone : ¬ ∃ e ∈ es, isMicrosoftWpa e := by
      simpa using hwpa
    refine ⟨iff_of_false ?_ hnone, fun h => (hrsn h).elim, fun _ => ?_,
      iff_of_false ?_ (hcount _), iff_of_false ?_ (hcount _), fun _ _ => rfl⟩
    all_goals cases privacy <;> decide

/-- The classification of parsed elements follows the rules exactly if those that
decide can be read and the suites do not split the transition. -/
theorem verdict_follows_iff (hes : ∀ e ∈ es, Shaped e) :
    (∃ l, verdict privacy es = .ok l ∧ Follows privacy es l) ↔ VendorsRead es ∧ RsnRead es := by
  have hraises (hverdict : verdict privacy es = .error .attributeError) :
      ¬ ∃ l, verdict privacy es = .ok l ∧ Follows privacy es l := by
    rintro ⟨l, hl, -⟩
    cases hverdict.symm.trans hl
  have hreturns {found : List WiFiSecurity} (hverdict : verdict privacy es = .ok found) :
      (∃ l, verdict privacy es = .ok l ∧ Follows privacy es l) ↔ Follows privacy es found := by
    rw [hverdict]
    simp
  rcases anyWpa_shaped hes with ⟨hread, hwpa⟩ | ⟨hread, hwpa⟩
  · rw [and_iff_right hread]
    cases hfirst : firstRsnElement es with
    | none =>
      have hverdict : verdict privacy es = .ok
          (if es.any isMicrosoftWpa then [.wpa] else [if privacy then .wep else .open]) := by
        rw [verdict, hwpa, show es.find? _ = none from hfirst]
        cases es.any isMicrosoftWpa <;> rfl
      rw [hreturns hverdict]
      refine iff_of_true (follows_no_rsn hfirst) fun e he => ?_
      cases hfirst.symm.trans he
    | some e =>
      have hshape := hes e (List.mem_of_find?_eq_some hfirst)
      have hid : e.id = .rsn := by simpa using List.find?_some hfirst
      have hcount (P : InformationElement → Prop) :
          (∀ e', firstRsnElement es = some e' → P e') ↔ P e := by
        simp [hfirst]
      rw [RsnRead, hcount]
      by_cases hlen : e.len = 0
      · refine iff_of_false (hraises ?_) fun h => h.1 hlen
        rw [verdict, hwpa, show es.find? _ = some e from hfirst, rsnOf, hshape.empty hlen]
        exact classify_rsn_error _ _
      · obtain ⟨rsn, hinfo⟩ := hshape.rsn hid (Nat.pos_of_ne_zero hlen)
        have hverdict : verdict privacy es = .ok
            ((if es.any isMicrosoftWpa then [.wpa] else []) ++ [rsnSecurity rsn]) := by
          rw [verdict, hwpa, show es.find? _ = some e from hfirst, rsnOf, hinfo]
          exact classify_rsn _ rsn
        rw [hreturns hverdict, follows_rsn hfirst hinfo, and_iff_right hlen, hinfo]
        simp
  · refine iff_of_false (hraises ?_) fun h => hread h.1
    rw [verdict, hwpa]
    exact classify_error _ _

end Verdict

/-! ## Packets -/

/-- The classification of a parsed beacon or probe response. -/
theorem security_follows_iff (b : Bytes) (p : WiFiPacket) (hinit : init b = .ok p)
    (body : FrameBody) (hframe : p.parsedData.frameBody = some body) (cap : CapabilityInfo)
    (es : List InformationElement) (hbody : announced body = some (cap, es)) :
    (∃ l, security p = .ok l ∧ Follows cap.privacy es l) ↔ VendorsRead es ∧ RsnRead es := by
  obtain ⟨hp, hes⟩ := packet_shaped hinit hframe hbody
  have hsecurity : security p = verdict cap.privacy es := by
    rw [hp]
    exact security_announced hframe hbody
  rw [hsecurity]
  exact verdict_follows_iff hes

/-- A RSN element with CCMP and these suites, of which the protection is capable only. -/
def capableElement (akms : List UInt8) : Bytes :=
  [48, UInt8.ofNat (16 + 4 * akms.length), 1, 0, 0, 0x0f, 0xac, 4, 1, 0, 0, 0x0f, 0xac, 4] ++
    UInt8.ofNat akms.length :: 0 :: akms.flatMap (fun a => [0, 0x0f, 0xac, a]) ++ [1, 0]

def capableRsn (akms : List AKMSuites) : InformationElement where
  id := .rsn
  len := 16 + 4 * akms.length
  idExtension := none
  info := some <| .rsn {
    version := 1
    groupCipherSuite := .ieeeCcmp
    pairwiseCipherSuiteCount := 1
    pairwiseCipherSuites := [.ieeeCcmp]
    akmSuiteCount := akms.length
    akmSuites := akms
    rsnCapabilities := some ⟨false, false, 0, 0, false, true, false, false, false, false, false,
      false, false, false⟩
    pmkidCount := 0
    pmkids := []
    groupManagmentCipherSuite := none }

theorem init_beacon {elements : Bytes} {es : List InformationElement}
    (hes : (informationElement.range elements).1.map Prod.snd = es) :
    ∃ p body cap, init (accessPoint.frame elements) = .ok p ∧
      p.parsedData.frameBody = some body ∧ announced body = some (cap, es) ∧
      cap.privacy = true ∧ security p = verdict true es := by
  subst hes
  obtain ⟨v, hv, a, b, cap, hprivacy, hbody⟩ := accessPoint.frame_parse elements
  have htrue : cap.privacy = true := hprivacy.trans (by decide)
  have hsecurity := security_announced hbody rfl
  rw [htrue] at hsecurity
  exact ⟨_, _, cap, init_eq_ok.mpr ⟨v, [], hv, rfl⟩, hbody, rfl, htrue, hsecurity⟩

/-- An access point with both suites. -/
theorem security_follows_both : ∃ p, init (accessPoint.frame (capableElement [2, 8])) = .ok p ∧
    ∃ l, security p = .ok l ∧ Follows true [capableRsn [.ieeePsk, .ieeeSae]] l := by
  have hes : (informationElement.range (capableElement [2, 8])).1.map Prod.snd =
      [capableRsn [.ieeePsk, .ieeeSae]] := by decide +kernel
  obtain ⟨p, body, cap, hinit, hframe, hbody, hprivacy, -⟩ := init_beacon hes
  have hfollows := security_follows_iff _ p hinit body hframe cap _ hbody
  rw [hprivacy] at hfollows
  refine ⟨p, hinit, hfollows.mpr ⟨?_, ?_⟩⟩
  · intro e he
    obtain rfl := List.mem_singleton.mp he
    exact fun hid => absurd hid (by decide)
  · intro e he
    cases he
    refine ⟨by decide, fun rsn hrsn _ => ?_⟩
    cases hrsn
    decide

/-- Without SAE the same access point counts as one in transition, and an empty vendor
element or RSN element raises. -/
theorem psk_in_transition :
    (∃ p, init (accessPoint.frame (capableElement [2])) = .ok p ∧
      security p = .ok [.wpa3Tran] ∧ ¬ Follows true [capableRsn [.ieeePsk]] [.wpa3Tran]) ∧
    (∃ p, init (accessPoint.frame emptyVendor) = .ok p ∧ security p = .error .attributeError) ∧
    ∃ p, init (accessPoint.frame emptyRsn) = .ok p ∧ security p = .error .attributeError := by
  refine ⟨?_, ?_, ?_⟩
  · have hes : (informationElement.range (capableElement [2])).1.map Prod.snd =
        [capableRsn [.ieeePsk]] := by decide +kernel
    obtain ⟨p, body, cap, hinit, -, -, -, hsecurity⟩ := init_beacon hes
    refine ⟨p, hinit, hsecurity.trans (by decide), fun h => ?_⟩
    obtain ⟨e, he, rsn, hrsn, -, -, -, hsae⟩ := h.wpa3Tran.mp (by decide)
    cases he
    cases hrsn
    exact absurd hsae (by decide)
  · have hes : (informationElement.range emptyVendor).1.map Prod.snd =
        [⟨.vendorSpecific, 0, none, none⟩] := by decide +kernel
    obtain ⟨p, body, cap, hinit, -, -, -, hsecurity⟩ := init_beacon hes
    exact ⟨p, hinit, hsecurity⟩
  · have hes : (informationElement.range emptyRsn).1.map Prod.snd =
        [⟨.rsn, 0, none, none⟩] := by decide +kernel
    obtain ⟨p, body, cap, hinit, -, -, -, hsecurity⟩ := init_beacon hes
    exact ⟨p, hinit, hsecurity⟩

end InVehicle.WlanClassify
