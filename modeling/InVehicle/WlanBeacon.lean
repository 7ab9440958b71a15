import InVehicle.WlanRebuild
import InVehicle.WlanSecurity

/-!
# The security of a beacon

A beacon is classified from the capability information and from two things in its
elements: the first vendor element that decides on WPA and the first RSN element.
-/

set_option autoImplicit false

namespace InVehicle.WlanBeacon
open InVehicle.Words InVehicle.Formats InVehicle.Formats.Format InVehicle.FormatLaws
open InVehicle.WlanEnums InVehicle.WlanElements InVehicle.WlanElementLaws
open InVehicle.WlanFrame InVehicle.WlanFrameLaws InVehicle.WlanRebuild InVehicle.WlanSecurity

def rsnOf : Option InformationElement → Except Failure (List WiFiSecurity)
  | none => .ok []
  | some e => match e.info with
    | some (.rsn rsn) => .ok [rsnSecurity rsn]
    | _ => .error .attributeError

def classify (privacy : Bool) (wpa : Except Failure Bool)
    (rsn : Except Failure (List WiFiSecurity)) : Except Failure (List WiFiSecurity) := do
  let wpa ← wpa
  let rsn ← rsn
  let found := (if wpa then [.wpa] else []) ++ rsn
  if found.isEmpty then return [if privacy then .wep else .open]
  return found

def verdict (privacy : Bool) (es : List InformationElement) : Except Failure (List WiFiSecurity) :=
  classify privacy (anyWpa (es.filter fun e => e.id = .vendorSpecific))
    (rsnOf (es.find? fun e => e.id = .rsn))

section Elements
variable (t : Elements) (e : InformationElement) (es : List InformationElement)

theorem addElement_other (k : IEType) (h : e.id ≠ k) : addElement t e k = t k := by
  unfold addElement
  split_ifs
  · rw [Function.update_of_ne h.symm]
  · rfl
  · rw [Function.update_of_ne h.symm]

theorem addElement_rsn :
    addElement t e .rsn = (t .rsn).or (if e.id = .rsn then some (.single e) else none) := by
  by_cases h : e.id = .rsn
  · have hmem : IEType.rsn ∉ repeatingElementTypes := by decide
    cases ht : t .rsn with
    | none => simp [addElement, h, hmem, ht]
    | some x => simp [addElement, h, hmem, ht]
  · rw [addElement_other t e _ h, if_neg h, Option.or_none]

theorem fold_rsn : (es.foldl addElement t) .rsn =
    (t .rsn).or ((es.find? fun e => e.id = .rsn).map .single) := by
  induction es generalizing t with
  | nil => simp
  | cons e es ih =>
    rw [List.foldl_cons, ih, addElement_rsn, Option.or_assoc]
    by_cases h : e.id = .rsn
    · simp [h]
    · simp [h]

def vendorEntry : List InformationElement → Option Entry
  | [] => none
  | es => some (.repeated es)

theorem addElement_vendor (l : List InformationElement) (h : t .vendorSpecific = vendorEntry l) :
    addElement t e .vendorSpecific =
      vendorEntry (l ++ if e.id = .vendorSpecific then [e] else []) := by
  by_cases hid : e.id = .vendorSpecific
  · have hmem : IEType.vendorSpecific ∈ repeatingElementTypes := by decide
    cases l with
    | nil => simp [addElement, hid, hmem, h, vendorEntry, repeatedOf]
    | cons v l => simp [addElement, hid, hmem, h, vendorEntry, repeatedOf]
  · rw [addElement_other t e _ hid, if_neg hid, List.append_nil, h]

theorem fold_vendor (l : List InformationElement) (h : t .vendorSpecific = vendorEntry l) :
    (es.foldl addElement t) .vendorSpecific =
      vendorEntry (l ++ es.filter fun e => e.id = .vendorSpecific) := by
  induction es generalizing t l with
  | nil => simp [h]
  | cons e es ih =>
    rw [List.foldl_cons, ih _ _ (addElement_vendor t e l h)]
    by_cases hid : e.id = .vendorSpecific
    · simp [hid]
    · simp [hid]

end Elements

theorem wpaPart_vendorEntry (elements : Elements) (l : List InformationElement)
    (h : elements .vendorSpecific = vendorEntry l) :
    wpaPart elements = (anyWpa l).map fun wpa => if wpa then [.wpa] else [] := by
  cases l with
  | nil => simp [wpaPart, h, vendorEntry, anyWpa, Except.map]
  | cons e l =>
    simp only [wpaPart, h, vendorEntry]
    cases anyWpa (e :: l) with
    | error err => rfl
    | ok wpa => cases wpa <;> rfl

theorem rsnPart_single (elements : Elements) (o : Option InformationElement)
    (h : elements .rsn = o.map .single) : rsnPart elements = rsnOf o := by
  rw [rsnPart, h]
  cases o with
  | none => rfl
  | some e => rfl

/-- The capability information and the elements of a beacon or a probe response. -/
def announced : FrameBody → Option (CapabilityInfo × List InformationElement)
  | .beacon _ _ cap es _ | .probeResponse _ _ cap es => some (cap, es)
  | _ => none

section Announced
variable {frame : WifiFrame} {body : FrameBody} {cap : CapabilityInfo}
  {es : List InformationElement}

theorem bodyElements_announced (h : announced body = some (cap, es)) : bodyElements body = es := by
  cases body <;> cases h <;> rfl

theorem capabilityOf_announced (h : announced body = some (cap, es)) :
    capabilityOf body = .ok cap := by
  cases body <;> cases h <;> rfl

theorem openPart_announced (hbody : frame.frameBody = some body)
    (h : announced body = some (cap, es)) :
    openPart frame = .ok [if cap.privacy then .wep else .open] := by
  have hcap := capabilityOf_announced h
  have hopen : openPart frame =
      do if (← capabilityOf body).privacy then return [.wep] else return [.open] := by
    rw [openPart, hbody]
    cases body <;> cases h <;> rfl
  rw [hopen, hcap]
  show (if cap.privacy then _ else _) = _
  cases cap.privacy <;> rfl

theorem security_announced (hbody : frame.frameBody = some body)
    (h : announced body = some (cap, es)) :
    security ⟨frame, parseIeElements frame⟩ = verdict cap.privacy es := by
  have helements : parseIeElements frame = es.foldl addElement fun _ => none := by
    rw [parseIeElements, hbody]
    show (bodyElements body).foldl addElement _ = _
    rw [bodyElements_announced h]
  have hwpa := wpaPart_vendorEntry _ _ (fold_vendor (fun _ => none) es [] rfl)
  have hrsn := rsnPart_single _ _ (fold_rsn (fun _ => none) es)
  rw [List.nil_append] at hwpa
  have hopen := openPart_announced hbody h
  simp only [security, helements, hwpa, hrsn, verdict, classify, hopen]
  cases anyWpa (es.filter fun e => e.id = .vendorSpecific) with
  | error e => rfl
  | ok wpa =>
    cases rsnOf (es.find? fun e => e.id = .rsn) with
    | error e => rfl
    | ok rsn => rfl

end Announced

theorem init_eq_ok {b : Bytes} {p : WiFiPacket} : init b = .ok p ↔
    ∃ v s, wifiFrameHeader.parse b = .ok (v, s) ∧ p = ⟨v, parseIeElements v⟩ := by
  cases hparse : wifiFrameHeader.parse b with
  | error e => cases e <;> simp [init, parseAll, hparse, Except.map]
  | ok q =>
    obtain ⟨v, s⟩ := q
    obtain ⟨w, hw, -⟩ := restores_frame b v s hparse
    simp [init, parseAll, hparse, Except.map, hw, eq_comm]

/-- What a beacon has in front of its elements: the frame control, the other header
fields, the timestamp with the interval, and the capability information. -/
structure Beacon where
  control : UInt8
  flags : UInt8
  header : Bytes
  times : Bytes
  capability : UInt8
  capability' : UInt8
  management : control.toNat / 4 % 4 = 0
  beacon : control.toNat / 16 = 8
  header_length : header.length = 22
  times_length : times.length = 10

namespace Beacon

variable (h : Beacon) (elements : Bytes)

def body : Bytes := h.times ++ h.capability :: h.capability' :: elements

def frame : Bytes := h.control :: h.flags :: (h.header ++ h.body elements)

def privacy : Bool := (byteBits h.capability).getD 4 false

theorem capabilityInfo_parse (x y : UInt8) (s : Bytes) : ∃ cap,
    capabilityInfo.parse (x :: y :: s) = .ok (cap, s) ∧
      cap.privacy = (byteBits x).getD 4 false := by
  have hall : capabilityBits.parseAll ([x, y].flatMap (unpack true)) = .ok _ := rfl
  exact ⟨_, (map_parse _).mpr ⟨_, bitStruct_parse (u := [x, y]) rfl hall, rfl⟩, rfl⟩

theorem body_parse : ∃ v, WlanFrame.beacon.parse (h.body elements) = .ok (v, []) ∧
    ∃ a b cap, cap.privacy = h.privacy ∧ v = .beacon a b cap
      ((informationElement.range elements).1.map Prod.snd)
      (informationElement.range elements).2 := by
  have hlen := h.times_length
  have hbody : (h.body elements).length = 12 + elements.length := by
    simp only [body, List.length_append, List.length_cons]
    omega
  have hdrop : (h.body elements).drop (8 + 2) = h.capability :: h.capability' :: elements := by
    rw [body, List.drop_left' hlen]
  obtain ⟨cap, hcap, hprivacy⟩ := capabilityInfo_parse h.capability h.capability' elements
  have hrest : ∃ p, (capabilityInfo.pair (informationElements.pair greedyBytes)).parse
      (h.capability :: h.capability' :: elements) = .ok (p, []) ∧
      (p.1.privacy = h.privacy ∧ p.2 = ((informationElement.range elements).1.map Prod.snd,
        (informationElement.range elements).2)) := by
    refine ⟨(cap, _), (seq_parse _ _).mpr ⟨_, hcap, ?_⟩, hprivacy, rfl⟩
    exact (seq_parse _ _).mpr ⟨_, rfl, rfl⟩
  rw [← hdrop, ← List.drop_drop] at hrest
  obtain ⟨p, hp, hpriv, helems⟩ := pair_enough (f := int64ul) (by omega)
    (pair_enough (f := int16ul) (by rw [List.length_drop]; omega) hrest)
  refine ⟨_, (variant_parse _).mpr ⟨p, hp, rfl⟩, p.1, p.2.1, p.2.2.1, hpriv, ?_⟩
  obtain ⟨a, b, c, es, mme⟩ := p
  cases helems
  rfl

theorem frameControl_beacon : (frameControlOf h.control h.flags).type = .management ∧
    (frameControlOf h.control h.flags).subtype = .management .beacon := by
  simp only [frameControlOf, h.management, h.beacon]
  exact ⟨rfl, rfl⟩

theorem frameTail_parse (fc : FrameControl) (hc : fc.type ≠ .control) (b s : Bytes)
    (v : FrameBody) (hlen : 22 ≤ b.length)
    (hbody : (frameTypeParsers fc).parse (b.drop 22) = .ok (v, s)) :
    ∃ p, (frameTail fc).parse b = .ok (p, s) ∧ p.2.2.2.2.2.2 = some v := by
  have hx : ∃ x, (optional true (frameTypeParsers fc)).parse
      ((((((b.drop 2).drop 6).drop 6).drop 6).drop 0).drop 2) = .ok (x, s) ∧ x = some v := by
    simp only [List.drop_drop]
    exact ⟨some v, (variant_parse _).mpr ⟨v, hbody, rfl⟩, rfl⟩
  have hsequence := pair_enough (f := optional true sequenceControl) (by simp; omega) hx
  have hcontrol := pair_enough (f := optional false (greedyBytes : Format UInt8 Bytes))
    (by simp) hsequence
  have haddress3 := pair_enough (f := optional true addressField) (by simp; omega) hcontrol
  have haddress2 := pair_enough (f := optional true addressField) (by simp; omega) haddress3
  have haddress1 := pair_enough (f := addressField) (by simp; omega) haddress2
  simp only [frameTail, hc, ne_eq, not_false_eq_true, decide_false, decide_true]
  exact pair_enough (f := int16ul) (by omega) haddress1

theorem frame_parse : ∃ v, wifiFrameHeader.parse (h.frame elements) = .ok (v, []) ∧
    ∃ a b cap, cap.privacy = h.privacy ∧ v.frameBody = some (.beacon a b cap
      ((informationElement.range elements).1.map Prod.snd)
      (informationElement.range elements).2) := by
  obtain ⟨htype, hsubtype⟩ := h.frameControl_beacon
  have hlen := h.header_length
  obtain ⟨v, hv, a, b, cap, hprivacy, rfl⟩ := h.body_parse elements
  obtain ⟨p, hp, hbody⟩ := frameTail_parse (frameControlOf h.control h.flags)
    (by rw [htype]; decide) (h.header ++ h.body elements) [] _
    (by rw [List.length_append]; omega) (by
      rw [List.drop_left' hlen]
      simp only [frameTypeParsers, htype, hsubtype]
      exact hv)
  refine ⟨_, (map_parse _).mpr ⟨(_, p), (seq_parse _ _).mpr ⟨_, frameControl_parse _ _ _, hp⟩, rfl⟩,
    a, b, cap, hprivacy, hbody⟩

theorem securityOf_frame : securityOf (h.frame elements) =
    verdict h.privacy ((informationElement.range elements).1.map Prod.snd) := by
  obtain ⟨v, hv, a, b, cap, hprivacy, hbody⟩ := h.frame_parse elements
  have hinit : init (h.frame elements) = .ok ⟨v, parseIeElements v⟩ :=
    init_eq_ok.mpr ⟨v, [], hv, rfl⟩
  have hsecurity := security_announced hbody rfl
  rw [hprivacy] at hsecurity
  rw [securityOf, hinit]
  exact hsecurity

end Beacon

def accessPoint : Beacon where
  control := 0x80
  flags := 0
  header := List.replicate 22 0
  times := List.replicate 10 0
  capability := 0x11
  capability' := 0
  management := by decide
  beacon := by decide
  header_length := by decide
  times_length := by decide

end InVehicle.WlanBeacon
