import InVehicle.WlanBeacon
import InVehicle.WlanFraming

/-!
# Elements as they stand in a frame

What the classification takes from the elements of a frame, told from their bytes:
the first vendor element that decides on WPA and the first RSN element. Such an
element without content parses, and the classification then fails on it.
-/

set_option autoImplicit false

namespace InVehicle.WlanPieces
open InVehicle.Words InVehicle.Formats InVehicle.Formats.Format InVehicle.FormatLaws
open InVehicle.WlanEnums InVehicle.WlanElements InVehicle.WlanElementLaws InVehicle.WlanFraming
open InVehicle.FormatRanges InVehicle.WlanSecurity InVehicle.WlanBeacon

def emptyVendor : Bytes := [221, 0]

def emptyRsn : Bytes := [48, 0]

def isVendor (p : Bytes) : Bool := p.head? = some 221

def isRsn (p : Bytes) : Bool := p.head? = some 48

def wpaType : Bytes := [0x00, 0x50, 0xf2, 1]

def decides (p : Bytes) : Bool :=
  isVendor p && (p = emptyVendor || (p.drop 2).take 4 = wpaType)

def firstVendor (ps : List Bytes) : Option Bytes := ps.find? decides

def firstRsn (ps : List Bytes) : Option Bytes := ps.find? isRsn

section Element
variable {p : Bytes} {v : InformationElement}

theorem informationElement_shape {s : Bytes} (h : informationElement.parse p = .ok (v, s)) :
    ∃ x y c, p = x :: y :: c := by
  obtain ⟨⟨id, t⟩, hp, -⟩ := (map_parse _).mp h
  obtain ⟨r, hid, ht⟩ := (seq_parse _ _).mp hp
  obtain ⟨q, hlen, -⟩ := (seq_parse _ _).mp ht
  obtain ⟨hone, rfl⟩ := sized_drop hid
  obtain ⟨htwo, -⟩ := sized_drop hlen
  rw [List.length_drop] at htwo
  match p, hone, htwo with
  | x :: y :: c, _, _ => exact ⟨x, y, c, rfl⟩

theorem id_eq_iff {s : Bytes} (h : informationElement.parse p = .ok (v, s)) (x : UInt8)
    (e : IEType) (he : e = IEType.decode x.toNat) : v.id = e ↔ p.head? = some x := by
  obtain ⟨z, y, c, rfl⟩ := informationElement_shape h
  obtain ⟨t, -, rfl⟩ := (informationElement_parse _ _ _ _ _).mp h
  rw [he, List.head?_cons, Option.some.injEq, ← UInt8.toNat_inj]
  exact (decode_iff IEType.encode_decode (by rw [IEType.encode_decode]) _).trans
    (by rw [IEType.encode_decode])

theorem info_cases (x : UInt8) (hx : IEType.decode x.toNat ≠ .extendedId)
    (hp : p.head? = some x) (h : informationElement.parse p = .ok (v, [])) :
    (p = [x, 0] ∧ v.info = none) ∨ ∃ y c i, p = x :: y :: c ∧ y ≠ 0 ∧ v.info = some i ∧
      (ieElements (IEType.decode x.toNat) y.toNat).parse c = .ok (i, []) := by
  obtain ⟨z, y, c, rfl⟩ := informationElement_shape h
  obtain rfl : z = x := by simpa using hp
  obtain ⟨⟨extension, info⟩, ht, rfl⟩ := (informationElement_parse _ _ _ _ _).mp h
  simp only [hx, decide_false, if_false] at ht
  obtain ⟨s, hs, ht⟩ := (seq_parse _ _).mp ht
  cases hs
  by_cases hy : y = 0
  · subst hy
    cases ht
    exact .inl ⟨rfl, rfl⟩
  · have hpos : 0 < y.toNat := by
      rw [Nat.pos_iff_ne_zero]
      exact fun h => hy (UInt8.toNat_inj.mp h)
    rw [decide_eq_true hpos] at ht
    obtain ⟨i, hi, hinfo⟩ := (variant_parse _).mp ht
    exact .inr ⟨y, c, i, rfl, hy, hinfo.symm, hi⟩

theorem microsoft_iff (u : Bytes) (hu : u.length = 3) :
    VendorOui.decode (byte.ofBe u) = .microsoftCorp ↔ u = [0x00, 0x50, 0xf2] := by
  rw [decode_iff VendorOui.encode_decode rfl]
  constructor
  · intro h
    rw [← byte.be_ofBe u, hu, h]
    decide
  · rintro rfl
    decide

theorem wpa_iff (z : UInt8) : MicrosoftSpecificElementType.decode z.toNat = .wpa ↔ z = 1 := by
  rw [decode_iff MicrosoftSpecificElementType.encode_decode rfl, ← UInt8.toNat_inj]
  rfl

theorem isWpa_other {oui : VendorOui} {content : VendorSpecificContent}
    (hi : v.info = some (.vendorSpecific oui content)) (h : oui ≠ .microsoftCorp) :
    isWpa v = .ok false := by
  cases oui with
  | microsoftCorp => exact absurd rfl h
  | ieee => simp only [isWpa, hi]
  | other n => simp only [isWpa, hi]

theorem isWpa_vendor (c : Bytes) (len : ℕ) (i : Info) (hi : v.info = some i)
    (h : (vendorSpecificElement len).parse c = .ok (i, [])) :
    isWpa v = .ok (c.take 4 = wpaType) := by
  obtain ⟨⟨oui, content⟩, hc, rfl⟩ := (variant_parse _).mp h
  obtain ⟨s, houi, hcontent⟩ := (seq_parse _ _).mp hc
  obtain ⟨hlen, rfl, rfl⟩ := (vendorOui_parse c s oui).mp houi
  have htake : (c.take 3).length = 3 := by
    rw [List.length_take]
    omega
  have hms := microsoft_iff (c.take 3) htake
  by_cases hoff : c.take 3 = [0x00, 0x50, 0xf2]
  · rw [hms.mpr hoff] at hi hcontent
    rw [vendorSpecificContent, if_pos rfl] at hcontent
    obtain ⟨⟨type, fields⟩, hpair, rfl⟩ := (variant_parse _).mp hcontent
    obtain ⟨r, htype, -⟩ := (seq_parse _ _).mp hpair
    cases hdrop : c.drop 3 with
    | nil => rw [hdrop] at htype; cases htype
    | cons z d =>
      rw [hdrop] at htype
      obtain ⟨n, hn, rfl⟩ := (map_parse _).mp htype
      rw [byteField_parse] at hn
      cases hn
      have hfour : c.take 4 = [0x00, 0x50, 0xf2, z] := by
        rw [← List.take_append_drop 3 c, hoff, hdrop]
        rfl
      simp [isWpa, hi, hfour, wpaType, wpa_iff]
  · have hne : c.take 4 ≠ wpaType := by
      intro hfour
      have hthree := congrArg (List.take 3) hfour
      rw [List.take_take] at hthree
      exact hoff hthree
    simp only [hne, decide_false]
    exact isWpa_other hi (mt hms.mp hoff)

theorem isWpa_read (hp : p.head? = some 221) (h : informationElement.parse p = .ok (v, [])) :
    isWpa v = if p = emptyVendor then .error .attributeError
      else .ok ((p.drop 2).take 4 = wpaType) := by
  rcases info_cases 221 (by decide) hp h with ⟨rfl, hinfo⟩ | ⟨y, c, i, rfl, hy, hinfo, hi⟩
  · simp [isWpa, hinfo, emptyVendor]
  · rw [isWpa_vendor c y.toNat i hinfo hi, if_neg]
    · rfl
    · intro he
      cases he
      exact hy rfl

end Element

def scan : Option Bytes → Except Failure Bool
  | none => .ok false
  | some p => if p = emptyVendor then .error .attributeError else .ok true

theorem scan_none : scan none = .ok false := rfl

theorem scan_emptyVendor : scan (some emptyVendor) = .error .attributeError := rfl

theorem scan_cases (v : Option Bytes) : v = none ∨ v = some emptyVendor ∨
    ∃ p, v = some p ∧ p ≠ emptyVendor ∧ scan v = .ok true := by
  cases v with
  | none => exact .inl rfl
  | some p =>
    by_cases h : p = emptyVendor
    · exact .inr (.inl (by rw [h]))
    · exact .inr (.inr ⟨p, rfl, h, if_neg h⟩)

theorem anyWpa_read (ps : List (Bytes × InformationElement)) (h : Read informationElement ps) :
    anyWpa ((ps.map Prod.snd).filter fun e => e.id = .vendorSpecific) =
      scan (firstVendor (ps.map Prod.fst)) := by
  induction ps with
  | nil => rfl
  | cons q ps ih =>
    obtain ⟨p, v⟩ := q
    obtain ⟨hp, hps⟩ := List.forall_mem_cons.mp h
    have hid : v.id = .vendorSpecific ↔ p.head? = some 221 := id_eq_iff hp 221 _ (by decide)
    have hrest := ih hps
    by_cases hv : p.head? = some 221
    · have hw := isWpa_read hv hp
      rw [List.map_cons, List.filter_cons_of_pos (by simpa using hid.mpr hv)]
      by_cases hempty : p = emptyVendor
      · rw [if_pos hempty] at hw
        simp [anyWpa, hw, firstVendor, decides, isVendor, hempty, scan, bind, Except.bind,
          emptyVendor]
      · rw [if_neg hempty] at hw
        by_cases htype : (p.drop 2).take 4 = wpaType
        · simp [anyWpa, hw, firstVendor, decides, isVendor, hv, htype, scan, hempty, bind,
            Except.bind, pure, Except.pure]
        · rw [firstVendor] at hrest
          simp [anyWpa, hw, firstVendor, decides, isVendor, htype, hempty, hrest, bind,
            Except.bind]
    · rw [firstVendor] at hrest
      simp [hid, hv, firstVendor, decides, isVendor, hrest]

section Rsn
variable {p : Bytes} {v : InformationElement}

theorem rsn_read (hp : p.head? = some 48) (h : informationElement.parse p = .ok (v, [])) :
    (p = emptyRsn ∧ v.info = none) ∨ p ≠ emptyRsn ∧ ∃ rsn, v.info = some (.rsn rsn) := by
  rcases info_cases 48 (by decide) hp h with ⟨rfl, hinfo⟩ | ⟨y, c, i, rfl, hy, hinfo, hi⟩
  · exact .inl ⟨rfl, hinfo⟩
  · refine .inr ⟨fun he => ?_, ?_⟩
    · cases he
      exact hy rfl
    · obtain ⟨rsn, -, rfl⟩ := (variant_parse (rsnElement y.toNat)).mp hi
      exact ⟨rsn, hinfo⟩

theorem find_rsn (ps : List (Bytes × InformationElement)) (h : Read informationElement ps) :
    (ps.map Prod.snd).find? (fun e => e.id = .rsn) =
      (ps.find? fun q => isRsn q.1).map Prod.snd := by
  induction ps with
  | nil => rfl
  | cons q ps ih =>
    obtain ⟨hq, hps⟩ := List.forall_mem_cons.mp h
    have hid := id_eq_iff hq 48 .rsn (by decide)
    rw [List.map_cons, List.find?_cons, List.find?_cons, ih hps]
    by_cases hv : q.1.head? = some 48
    · simp [hid, isRsn, hv]
    · simp [hid, isRsn, hv]

def Adds : Option Bytes → Except Failure (List WiFiSecurity) → Prop
  | none, found => found = .ok []
  | some p, found =>
    if p = emptyRsn then found = .error .attributeError else ∃ rsn, found = .ok [rsnSecurity rsn]

theorem rsnOf_read (ps : List (Bytes × InformationElement)) (h : Read informationElement ps) :
    Adds (firstRsn (ps.map Prod.fst))
      (rsnOf ((ps.map Prod.snd).find? fun e => e.id = .rsn)) := by
  have hfirst : firstRsn (ps.map Prod.fst) = (ps.find? fun q => isRsn q.1).map Prod.fst := by
    rw [firstRsn, List.find?_map]
    rfl
  rw [hfirst, find_rsn ps h]
  cases hq : ps.find? fun q => isRsn q.1 with
  | none => rfl
  | some q =>
    have hread := h q (List.mem_of_find?_eq_some hq)
    have hrsn : q.1.head? = some 48 := by simpa [isRsn] using List.find?_some hq
    simp only [Option.map_some, Adds]
    rcases rsn_read hrsn hread with ⟨hempty, hinfo⟩ | ⟨hempty, rsn, hinfo⟩
    · rw [if_pos hempty]
      simp only [rsnOf, hinfo]
    · rw [if_neg hempty]
      exact ⟨rsn, by simp only [rsnOf, hinfo]⟩

end Rsn

theorem rsnSecurity_cases (r : RsnElement) :
    rsnSecurity r = .wpa2 ∨ rsnSecurity r = .wpa3 ∨ rsnSecurity r = .wpa3Tran := by
  unfold rsnSecurity
  split
  · exact .inl rfl
  · split_ifs
    · exact .inr (.inl rfl)
    · exact .inr (.inr rfl)
    · exact .inl rfl

theorem rsnSecurity_wpa3 (e : RsnElement) (cap : RsnCapabilities)
    (hcap : e.rsnCapabilities = some cap) : rsnSecurity e = .wpa3 ↔
      cap.managementFrameProtectionRequired ∧ cap.managementFrameProtectionCapable ∧
        (∃ akm ∈ e.akmSuites, akm ∈ wpa3MustAuth) ∧ (∀ akm ∈ e.akmSuites, akm ∉ wpa3BadAuth) ∧
        ∀ cipher ∈ ciphers e, cipher ∉ wpa3BadCiphers := by
  simp only [rsnSecurity, hcap]
  split_ifs with h h'
  · exact iff_of_true rfl h
  · exact iff_of_false (by decide) h
  · exact iff_of_false (by decide) h

section Classify
variable {privacy : Bool}

theorem classify_error (e : Failure) (x : Except Failure (List WiFiSecurity)) :
    classify privacy (.error e) x = .error e := rfl

theorem classify_rsn_error (wpa : Bool) (e : Failure) :
    classify privacy (.ok wpa) (.error e) = .error e := rfl

theorem classify_rsn (wpa : Bool) (r : RsnElement) :
    classify privacy (.ok wpa) (.ok [rsnSecurity r]) =
      .ok ((if wpa then [.wpa] else []) ++ [rsnSecurity r]) := by
  cases wpa <;> rfl

theorem classify_wpa : classify privacy (.ok true) (.ok []) = .ok [.wpa] := rfl

theorem classify_open :
    classify privacy (.ok false) (.ok []) = .ok [if privacy then .wep else .open] := rfl

end Classify

end InVehicle.WlanPieces
