import InVehicle.WlanClassify

/-!
# The influence of the SSID on the classification

A SSID that no encoding accepts ends the list of elements, and what is behind it
is not looked at. The classification changes exactly if that part decides on it. An
element in front that is taken for longer or shorter than it says makes the bytes of the
SSID parts of other elements.
-/

set_option autoImplicit false

namespace InVehicle.WlanSsid
open InVehicle.Words InVehicle.Formats InVehicle.Formats.Format InVehicle.FormatLaws
open InVehicle.FormatRanges InVehicle.WlanEnums InVehicle.WlanElements
open InVehicle.WlanElementLaws InVehicle.WlanFraming InVehicle.WlanSecurity InVehicle.WlanBeacon
open InVehicle.WlanPieces
open InVehicle.WlanClassify (CapableOnly Wpa3Only rsnSecurity_wpa3_iff rsnSecurity_wpa3Tran_iff)

/-- With these first elements in front, those behind make no difference. -/
def Settled (va vb ra rb : Option Bytes) : Prop :=
  va = some emptyVendor ∨ ra = some emptyRsn ∨
    (rb = none ∨ ra.isSome) ∧ (vb = none ∨ va.isSome)

section Classify
variable {privacy : Bool} {va vb ra rb : Option Bytes}
  {xa xb : Except Failure (List WiFiSecurity)}

theorem adds_cases {r : Option Bytes} {x : Except Failure (List WiFiSecurity)} (h : Adds r x) :
    (r = none ∧ x = .ok []) ∨ (r = some emptyRsn ∧ x = .error .attributeError) ∨
      ∃ p, r = some p ∧ p ≠ emptyRsn ∧ ∃ rsn, x = .ok [rsnSecurity rsn] := by
  cases r with
  | none => exact .inl ⟨rfl, h⟩
  | some p =>
    simp only [Adds] at h
    split_ifs at h with hp
    · exact .inr (.inl ⟨by rw [hp], h⟩)
    · exact .inr (.inr ⟨p, rfl, hp, h⟩)

theorem open_ne_rsn (r : RsnElement) :
    rsnSecurity r ≠ if privacy then WiFiSecurity.wep else .open := by
  rcases rsnSecurity_cases r with h | h | h <;> cases privacy <;> simp [h]

theorem classify_open_iff (hb : Adds rb xb) :
    classify privacy (scan vb) xb = .ok [if privacy then .wep else .open] ↔
      rb = none ∧ vb = none := by
  rcases scan_cases vb with rfl | rfl | ⟨p, rfl, -, hv⟩
  · rcases adds_cases hb with ⟨rfl, rfl⟩ | ⟨rfl, rfl⟩ | ⟨q, rfl, -, r, rfl⟩
    · simp [scan_none, classify_open]
    · simp [scan_none, classify_rsn_error]
    · simp [scan_none, classify_rsn, open_ne_rsn]
  · simp [scan_emptyVendor, classify_error]
  · rw [hv]
    rcases adds_cases hb with ⟨rfl, rfl⟩ | ⟨rfl, rfl⟩ | ⟨q, rfl, -, r, rfl⟩
    · cases privacy <;> simp [classify_wpa]
    · simp [classify_rsn_error]
    · simp [classify_rsn]

theorem classify_append_iff (ha : Adds ra xa) (hb : Adds rb xb) :
    classify privacy (scan (va.or vb)) (if ra.isSome then xa else xb) =
      classify privacy (scan va) xa ↔ Settled va vb ra rb := by
  rcases scan_cases va with rfl | rfl | ⟨p, rfl, hp, hv⟩
  · rw [Option.none_or]
    rcases adds_cases ha with ⟨rfl, rfl⟩ | ⟨rfl, rfl⟩ | ⟨q, rfl, hq, r, rfl⟩
    · simpa [scan_none, classify_open, Settled] using classify_open_iff hb
    · rcases scan_cases vb with rfl | rfl | ⟨p, rfl, -, hv⟩
      · simp [Settled]
      · simp [scan_none, scan_emptyVendor, classify_error, classify_rsn_error, Settled]
      · simp [hv, scan_none, classify_rsn_error, Settled]
    · rcases scan_cases vb with rfl | rfl | ⟨p, rfl, -, hv⟩
      · simp [Settled]
      · simp [scan_none, scan_emptyVendor, classify_error, classify_rsn, Settled, hq]
      · simp [hv, scan_none, classify_rsn, Settled, hq]
  · simp [scan_emptyVendor, classify_error, Settled]
  · rw [Option.some_or, hv]
    rcases adds_cases ha with ⟨rfl, rfl⟩ | ⟨rfl, rfl⟩ | ⟨q, rfl, hq, r, rfl⟩
    · rcases adds_cases hb with ⟨rfl, rfl⟩ | ⟨rfl, rfl⟩ | ⟨q, rfl, -, r, rfl⟩
      · simp [Settled]
      · simp [classify_wpa, classify_rsn_error, Settled, hp]
      · simp [classify_wpa, classify_rsn, Settled, hp]
    · simp [Settled]
    · simp [Settled]

end Classify

theorem verdict_append_iff (privacy : Bool) (a b : List (Bytes × InformationElement))
    (ha : Read informationElement a) (hb : Read informationElement b) :
    verdict privacy ((a ++ b).map Prod.snd) = verdict privacy (a.map Prod.snd) ↔
      Settled (firstVendor (a.map Prod.fst)) (firstVendor (b.map Prod.fst))
        (firstRsn (a.map Prod.fst)) (firstRsn (b.map Prod.fst)) := by
  have hab : Read informationElement (a ++ b) := fun p hp =>
    (List.mem_append.mp hp).elim (ha p) (hb p)
  have hvendor : firstVendor ((a ++ b).map Prod.fst) =
      (firstVendor (a.map Prod.fst)).or (firstVendor (b.map Prod.fst)) := by
    rw [List.map_append, firstVendor, List.find?_append]
    rfl
  have hrsn : rsnOf (((a ++ b).map Prod.snd).find? fun e => e.id = .rsn) =
      if (firstRsn (a.map Prod.fst)).isSome
      then rsnOf ((a.map Prod.snd).find? fun e => e.id = .rsn)
      else rsnOf ((b.map Prod.snd).find? fun e => e.id = .rsn) := by
    have hfirst : (firstRsn (a.map Prod.fst)).isSome =
        ((a.map Prod.snd).find? fun e => e.id = .rsn).isSome := by
      rw [firstRsn, List.find?_map, find_rsn a ha, Option.isSome_map, Option.isSome_map]
      rfl
    rw [hfirst, List.map_append, List.find?_append]
    cases (a.map Prod.snd).find? fun e => e.id = .rsn with
    | none => rfl
    | some e => rfl
  rw [verdict, verdict, anyWpa_read _ hab, anyWpa_read a ha, hvendor, hrsn]
  exact classify_append_iff (rsnOf_read a ha) (rsnOf_read b hb)

/-! ## Two lists of elements -/

/-- What the bytes of a RSN element hold, none if it is empty. -/
def rsnFields (p : Bytes) : Option RsnElement :=
  match informationElement.parse p with
  | .ok (v, _) =>
    match v.info with
    | some (.rsn rsn) => some rsn
    | _ => none
  | .error _ => none

/-- Capable only of protection, and with PSK or SAE. -/
def CapableAndKeyed (rsn : RsnElement) : Prop :=
  CapableOnly rsn ∧ (.ieeePsk ∈ rsn.akmSuites ∨ .ieeeSae ∈ rsn.akmSuites)

/-- The protection and the suites of both are those of WPA3 only, or of both those of the
transition to it, or of both neither. -/
def SameKind (rsn rsn' : RsnElement) : Prop :=
  (Wpa3Only rsn ↔ Wpa3Only rsn') ∧ (CapableAndKeyed rsn ↔ CapableAndKeyed rsn')

theorem rsnSecurity_eq_iff (rsn rsn' : RsnElement) :
    rsnSecurity rsn = rsnSecurity rsn' ↔ SameKind rsn rsn' := by
  rw [SameKind, CapableAndKeyed, CapableAndKeyed, ← rsnSecurity_wpa3_iff, ← rsnSecurity_wpa3_iff,
    ← rsnSecurity_wpa3Tran_iff, ← rsnSecurity_wpa3Tran_iff]
  rcases rsnSecurity_cases rsn with h | h | h <;>
    rcases rsnSecurity_cases rsn' with h' | h' | h' <;> simp [h, h']

theorem map_rsnSecurity_eq_iff (r r' : Option RsnElement) :
    r.map rsnSecurity = r'.map rsnSecurity ↔ Option.Rel SameKind r r' := by
  cases r with
  | none => cases r' <;> simp
  | some rsn =>
    cases r' with
    | none => simp
    | some rsn' => simpa using rsnSecurity_eq_iff rsn rsn'

/-- The classification raises: the vendor element or the RSN element that is looked at
has no content. -/
def Fails (ps : List Bytes) : Prop :=
  firstVendor ps = some emptyVendor ∨ firstRsn ps = some emptyRsn

/-- Both lists make the classification raise; or none does, WPA elements are in both or in
none, and so are RSN elements, the first ones of one kind. -/
def Alike (ps ps' : List Bytes) : Prop :=
  Fails ps ∧ Fails ps' ∨ ¬ Fails ps ∧ ¬ Fails ps' ∧
    ((firstVendor ps).isSome ↔ (firstVendor ps').isSome) ∧
    Option.Rel SameKind ((firstRsn ps).bind rsnFields) ((firstRsn ps').bind rsnFields)

section Lists
variable (privacy : Bool) {a b : List (Bytes × InformationElement)}

def rsnKinds : List (Option WiFiSecurity) := [none, some .wpa2, some .wpa3, some .wpa3Tran]

def rsnKind (ps : List Bytes) : Option WiFiSecurity :=
  ((firstRsn ps).bind rsnFields).map rsnSecurity

theorem rsnOf_kind (ha : Read informationElement a) :
    (firstRsn (a.map Prod.fst) = some emptyRsn ∧
        rsnOf ((a.map Prod.snd).find? fun e => e.id = .rsn) = .error .attributeError) ∨
      firstRsn (a.map Prod.fst) ≠ some emptyRsn ∧
        rsnOf ((a.map Prod.snd).find? fun e => e.id = .rsn) =
          .ok (rsnKind (a.map Prod.fst)).toList ∧
        rsnKind (a.map Prod.fst) ∈ rsnKinds := by
  have hfirst : firstRsn (a.map Prod.fst) = (a.find? fun q => isRsn q.1).map Prod.fst := by
    rw [firstRsn, List.find?_map]
    rfl
  rw [rsnKind, hfirst, find_rsn a ha]
  cases hq : a.find? fun q => isRsn q.1 with
  | none => exact .inr ⟨by simp, rfl, List.mem_cons_self⟩
  | some q =>
    have hread := ha q (List.mem_of_find?_eq_some hq)
    have hrsn : q.1.head? = some 48 := by simpa [isRsn] using List.find?_some hq
    rcases rsn_read hrsn hread with ⟨hempty, hinfo⟩ | ⟨hempty, rsn, hinfo⟩
    · refine .inl ⟨congrArg some hempty, ?_⟩
      simp only [Option.map_some, rsnOf, hinfo]
    · have hfields : rsnFields q.1 = some rsn := by
        simp only [rsnFields, hread, hinfo]
      refine .inr ⟨fun h => hempty (Option.some.inj h), ?_, ?_⟩
      · simp only [Option.map_some, Option.bind_some, hfields, rsnOf, hinfo, Option.toList_some]
      · rw [Option.map_some, Option.bind_some, hfields, Option.map_some]
        rcases rsnSecurity_cases rsn with h | h | h <;> simp [rsnKinds, h]

theorem verdict_fails (ha : Read informationElement a) (h : Fails (a.map Prod.fst)) :
    verdict privacy (a.map Prod.snd) = .error .attributeError := by
  rw [verdict, anyWpa_read a ha]
  rcases scan_cases (firstVendor (a.map Prod.fst)) with hv | hv | ⟨p, hv, hp, hscan⟩
  · rw [Fails, hv, or_iff_right (by simp)] at h
    rcases rsnOf_kind ha with ⟨-, hrsn⟩ | ⟨hne, -⟩
    · rw [hv, hrsn]
      rfl
    · exact absurd h hne
  · rw [hv]
    rfl
  · rw [Fails, hv, Option.some.injEq, or_iff_right hp] at h
    rcases rsnOf_kind ha with ⟨-, hrsn⟩ | ⟨hne, -⟩
    · rw [hscan, hrsn]
      rfl
    · exact absurd h hne

theorem verdict_found (ha : Read informationElement a) (h : ¬ Fails (a.map Prod.fst)) :
    ∃ k ∈ rsnKinds, rsnKind (a.map Prod.fst) = k ∧
      verdict privacy (a.map Prod.snd) =
        classify privacy (.ok (firstVendor (a.map Prod.fst)).isSome) (.ok k.toList) := by
  rw [Fails, not_or] at h
  obtain ⟨-, hrsn, hkinds⟩ := (rsnOf_kind ha).resolve_left fun hempty => h.2 hempty.1
  refine ⟨_, hkinds, rfl, ?_⟩
  rw [verdict, anyWpa_read a ha, hrsn]
  rcases scan_cases (firstVendor (a.map Prod.fst)) with hv | hv | ⟨p, hv, -, hscan⟩
  · rw [hv]
    rfl
  · exact absurd hv h.1
  · rw [hscan, hv]
    rfl

theorem classify_injective : ∀ privacy w w' : Bool, ∀ k ∈ rsnKinds, ∀ k' ∈ rsnKinds,
    (classify privacy (.ok w) (.ok k.toList) = classify privacy (.ok w') (.ok k'.toList) ↔
      w = w' ∧ k = k') := by
  decide

theorem verdict_alike_iff (ha : Read informationElement a) (hb : Read informationElement b) :
    verdict privacy (a.map Prod.snd) = verdict privacy (b.map Prod.snd) ↔
      Alike (a.map Prod.fst) (b.map Prod.fst) := by
  have herror (w : Bool) (k : Option WiFiSecurity) :
      classify privacy (.ok w) (.ok k.toList) ≠ .error .attributeError := by
    cases w <;> cases k <;> cases privacy <;> simp [classify, bind, Except.bind, pure, Except.pure]
  by_cases hfa : Fails (a.map Prod.fst)
  · rw [verdict_fails privacy ha hfa]
    by_cases hfb : Fails (b.map Prod.fst)
    · rw [verdict_fails privacy hb hfb]
      exact iff_of_true rfl (.inl ⟨hfa, hfb⟩)
    · obtain ⟨k, -, -, hverdict⟩ := verdict_found privacy hb hfb
      rw [hverdict]
      refine iff_of_false (herror _ _).symm ?_
      rintro (⟨-, h⟩ | ⟨h, -⟩)
      · exact hfb h
      · exact h hfa
  · obtain ⟨k, hk, hkind, hverdict⟩ := verdict_found privacy ha hfa
    by_cases hfb : Fails (b.map Prod.fst)
    · rw [hverdict, verdict_fails privacy hb hfb]
      refine iff_of_false (herror _ _) ?_
      rintro (⟨h, -⟩ | ⟨-, h, -⟩)
      · exact hfa h
      · exact h hfb
    · obtain ⟨k', hk', hkind', hverdict'⟩ := verdict_found privacy hb hfb
      rw [hverdict, hverdict', classify_injective privacy _ _ k hk k' hk', Alike,
        ← map_rsnSecurity_eq_iff, ← rsnKind, ← rsnKind, hkind, hkind', Bool.eq_iff_iff]
      simp only [hfa, hfb, false_and, false_or, not_false_eq_true, true_and]

end Lists

def ssidBytes (c : Bytes) : Bytes := 0 :: UInt8.ofNat c.length :: c

/-- A beacon with these bytes in front of its SSID and these behind it. -/
def ssidFrame (h : Beacon) (pre c rest : Bytes) : Bytes :=
  h.frame (pre ++ (ssidBytes c ++ rest))

def elementsIn (b : Bytes) : List Bytes := (informationElement.range b).1.map Prod.fst

def leftover (b : Bytes) : Bytes := (informationElement.range b).2

section Ssid
variable {c : Bytes} (hc : c.length < 256) (rest : Bytes)
include hc

theorem ssid_read (h : Decodable c) : ∃ v, informationElement.parse (ssidBytes c ++ rest) =
    .ok (v, rest) ∧ v.id = .ssid := by
  let e : Element := ⟨0, c, hc, fun h => absurd h (by decide)⟩
  obtain ⟨v, hv, hheader⟩ := e.parse_encode (.inr h) rest
  exact ⟨v, hv, congrArg Prod.fst hheader⟩

theorem ssid_decodable (v : InformationElement) (s : Bytes)
    (h : informationElement.parse (ssidBytes c ++ rest) = .ok (v, s)) : Decodable c := by
  by_cases hne : c = []
  · subst hne
    decide
  · obtain ⟨⟨extension, info⟩, ht, -⟩ := (informationElement_parse _ _ _ _ _).mp h
    rw [toNat_ofNat_length hc, decide_eq_true (List.length_pos_iff.mpr hne)] at ht
    obtain ⟨r, hr, ht⟩ := (seq_parse _ _).mp ht
    cases hr
    obtain ⟨i, hi, -⟩ := (variant_parse (ssidElement c.length)).mp ht
    obtain ⟨ssid, hs, -⟩ := (variant_parse _).mp hi
    obtain ⟨u, hu, hd⟩ := (adapt_parse _).mp hs
    obtain ⟨hsplit, hulen⟩ := bytes_parse.mp hu
    obtain rfl : u = c := (List.append_inj_left hsplit (by omega)).symm
    exact (whole_ssidElement u).mp ⟨_, (variant_parse _).mpr
      ⟨ssid, (adapt_parse _).mpr ⟨u, bytes_parse.mpr ⟨(List.append_nil u).symm, rfl⟩, hd⟩, rfl⟩⟩

end Ssid

theorem verdict_ssid (privacy : Bool) (es es' : List InformationElement) (v : InformationElement)
    (hv : v.id = .ssid) : verdict privacy (es ++ v :: es') = verdict privacy (es ++ es') := by
  simp [verdict, hv]

theorem securityOf_ssidFrame (h : Beacon) {pre : Bytes} (hpre : leftover pre = []) (rest : Bytes)
    {c : Bytes} (hc : c.length < 256) : securityOf (ssidFrame h pre c rest) = verdict h.privacy
      ((if Decodable c then (informationElement.range pre).1 ++ (informationElement.range rest).1
        else (informationElement.range pre).1).map Prod.snd) := by
  rw [ssidFrame, h.securityOf_frame, range_append consumes_informationElement hpre]
  by_cases hd : Decodable c
  · obtain ⟨v, hv, hid⟩ := ssid_read hc rest hd
    rw [if_pos hd, range_front consumes_informationElement (t := rest) hv, List.map_append,
      List.map_cons, verdict_ssid h.privacy _ _ v hid, List.map_append]
  · cases hp : informationElement.parse (ssidBytes c ++ rest) with
    | error e => rw [if_neg hd, range_error _ hp, List.append_nil]
    | ok q => exact absurd (ssid_decodable hc rest q.1 q.2 hp) hd

/-- Behind elements that come to their end where the SSID begins, both contents or none can
be read, or nothing behind them decides. Behind others the elements that the bytes are taken
for must be alike. -/
def Uninfluenced (pre c c' rest : Bytes) : Prop :=
  if leftover pre = [] then
    (Decodable c ↔ Decodable c') ∨
      Settled (firstVendor (elementsIn pre)) (firstVendor (elementsIn rest))
        (firstRsn (elementsIn pre)) (firstRsn (elementsIn rest))
  else
    Alike (elementsIn (pre ++ (ssidBytes c ++ rest))) (elementsIn (pre ++ (ssidBytes c' ++ rest)))

def wpa2Element : Bytes :=
  [48, 20, 1, 0, 0x00, 0x0f, 0xac, 4, 1, 0, 0x00, 0x0f, 0xac, 4, 1, 0, 0x00, 0x0f, 0xac, 2, 0, 0]

/-- The padding of a country element is left over, and the SSID behind it is taken apart. -/
def paddedCountry : Bytes := [7, 10, 0x55, 0x53, 0x20, 1, 11, 20, 36, 4, 23, 0]

def rsnInName : Bytes :=
  [0, 48, 20, 1, 0, 0x00, 0x0f, 0xac, 4, 1, 0, 0x00, 0x0f, 0xac, 4, 1, 0, 0x00, 0x0f, 0xac, 2,
    0, 0, 0]

example : leftover paddedCountry = [0] ∧
    securityOf (ssidFrame accessPoint paddedCountry rsnInName []) = .ok [.wpa2] ∧
    securityOf (ssidFrame accessPoint paddedCountry (0 :: List.replicate 23 0x41) []) =
      .ok [.wep] := by
  decide +kernel

end InVehicle.WlanSsid
