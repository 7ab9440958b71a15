import InVehicle.WlanFrameLaws

/-!
# Rebuilding a parsed frame

A frame that parses can always be built again. The same bytes come back exactly
if the body grammar of the frame left nothing over and every SSID returns in the
encoding it came in.
-/

set_option autoImplicit false

namespace InVehicle.WlanRebuild
open InVehicle.Words InVehicle.Formats InVehicle.Formats.Format InVehicle.FormatLaws
open InVehicle.WlanEnums InVehicle.WlanElements InVehicle.WlanFrame
open InVehicle.WlanElementLaws InVehicle.WlanFrameLaws

def elementsAt : ManagementSubtype → Option ℕ
  | .associationRequest => some 4
  | .associationResponse | .reassociationResponse => some 6
  | .reassociationRequest => some 10
  | .probeRequest => some 0
  | .probeResponse | .beacon => some 12
  | _ => none

def bodyless : DataSubtype → Bool
  | .nullFunction | .cfAck | .cfPoll | .cfAckCfPoll | .qosNull | .qosCfPollNoData
  | .qosCfAckCfPollNoData => true
  | _ => false

/-- A beacon keeps what is behind its elements, the other bodies drop it. -/
def ElementsKept (s : ManagementSubtype) (b : Bytes) : Prop :=
  (s ≠ .beacon → (informationElement.range b).2 = []) ∧
    ∀ p ∈ (informationElement.range b).1, Kept p.1

def ManagementKept (s : ManagementSubtype) (b : Bytes) : Prop :=
  match elementsAt s with
  | some n => ElementsKept s (b.drop n)
  | none => True

def DataKept (fc : FrameControl) (s : DataSubtype) (b : Bytes) : Prop :=
  bodyless s → b.length = headerLength fc s

def BodyKept (fc : FrameControl) (b : Bytes) : Prop :=
  match fc.type, fc.subtype with
  | .management, .management s => ManagementKept s b
  | .data, .data s => DataKept fc s b
  | _, _ => True

def FrameKept : Bytes → Prop
  | x :: y :: s => BodyKept (frameControlOf x y) (s.drop 22)
  | _ => True

theorem restores_greedyBody (b : Bytes) : Restores greedyBody b True :=
  restores_variant restores_greedyBytes fun _ => rfl

theorem restores_elements (s : ManagementSubtype) (hs : s ≠ .beacon) (b : Bytes) :
    Restores informationElements b (ElementsKept s b) := by
  have h := restores_range (b := b) consumes_informationElement informationElement_rebuilds
  simp only [ElementsKept, ne_eq, hs, not_false_eq_true, true_imp_iff]
  exact h

theorem restores_associationRequest (b : Bytes) :
    Restores associationRequest b (ElementsKept .associationRequest (b.drop 4)) := by
  refine restores_variant ?_ fun _ => rfl
  refine restores_pair (restores_pair ?_)
  rw [List.drop_drop]
  exact restores_elements _ (by decide) _

theorem restores_associationResponse (s : ManagementSubtype) (hs : s ≠ .beacon) (b : Bytes) :
    Restores associationResponse b (ElementsKept s (b.drop 6)) := by
  refine restores_variant ?_ fun _ => rfl
  refine restores_pair (restores_pair (restores_pair ?_))
  rw [List.drop_drop, List.drop_drop]
  exact restores_elements s hs _

theorem restores_reassociationRequest (b : Bytes) :
    Restores reassociationRequest b (ElementsKept .reassociationRequest (b.drop 10)) := by
  refine restores_variant ?_ fun _ => rfl
  refine restores_pair (restores_pair (restores_pair ?_))
  rw [List.drop_drop, List.drop_drop]
  exact restores_elements _ (by decide) _

theorem restores_probeRequest (b : Bytes) :
    Restores probeRequest b (ElementsKept .probeRequest b) := by
  refine restores_variant ?_ fun _ => rfl
  exact restores_elements _ (by decide) b

theorem restores_probeResponse (b : Bytes) :
    Restores probeResponse b (ElementsKept .probeResponse (b.drop 12)) := by
  refine restores_variant ?_ fun _ => rfl
  refine restores_pair (restores_pair (restores_pair ?_))
  rw [List.drop_drop, List.drop_drop]
  exact restores_elements _ (by decide) _

theorem restores_beacon (b : Bytes) :
    Restores beacon b (ElementsKept .beacon (b.drop 12)) := by
  refine restores_variant ?_ fun _ => rfl
  refine restores_pair (restores_pair (restores_pair ?_))
  rw [List.drop_drop, List.drop_drop]
  simp only [ElementsKept, ne_eq, not_true_eq_false, false_imp_iff, true_and]
  exact restores_range_greedyBytes consumes_informationElement informationElement_rebuilds

theorem restores_disassociation (b : Bytes) : Restores disassociation b True := by
  have h := restores_range_greedyBytes (b := b.drop 2) consumes_vendorSpecificElement
    rebuilds_of_invertible
  refine restores_variant (restores_pair ?_) fun _ => rfl
  simpa using h

theorem restores_authentication (b : Bytes) : Restores authentication b True := by
  refine restores_variant ?_ fun _ => rfl
  exact restores_pair (restores_pair (restores_pair restores_greedyBytes))

theorem restores_action (b : Bytes) : Restores action b True := by
  refine restores_variant ?_ fun _ => rfl
  exact restores_pair restores_greedyBytes

theorem restores_management (s : ManagementSubtype) (b : Bytes) :
    Restores (managementSubtypeParsers s) b (ManagementKept s b) := by
  cases s with
  | associationRequest => exact restores_associationRequest b
  | associationResponse | reassociationResponse =>
    exact restores_associationResponse _ (by decide) b
  | reassociationRequest => exact restores_reassociationRequest b
  | probeRequest => exact restores_probeRequest b
  | probeResponse => exact restores_probeResponse b
  | beacon => exact restores_beacon b
  | disassociation | deauthentication => exact restores_disassociation b
  | authentication => exact restores_authentication b
  | action | actionNoAck => exact restores_action b
  | timingAdvertisement | reserved1 | atim | reserved2 => exact restores_greedyBody b

theorem restores_dataFrameWithBody (fc : FrameControl) (s : DataSubtype) (b : Bytes) :
    Restores (dataFrameWithBody fc s) b True := by
  refine restores_variant ?_ fun _ => rfl
  exact restores_pair restores_greedyBytes

theorem restores_dataFrameWithoutBody (fc : FrameControl) (s : DataSubtype) (b : Bytes) :
    Restores (dataFrameWithoutBody fc s) b (b.length = headerLength fc s) :=
  restores_variant restores_sized fun _ => rfl

theorem restores_data (fc : FrameControl) (s : DataSubtype) (b : Bytes) :
    Restores (dataSubtypeParsers fc s) b (DataKept fc s b) := by
  have hwith := restores_dataFrameWithBody fc s b
  have hwithout := restores_dataFrameWithoutBody fc s b
  cases s with
  | nullFunction | cfAck | cfPoll | cfAckCfPoll | qosNull | qosCfPollNoData
  | qosCfAckCfPollNoData =>
    simp only [DataKept, bodyless, true_imp_iff]
    exact hwithout
  | data | dataCfAck | dataCfPoll | dataCfAckCfPoll | qosData | qosDataCfAck | qosDataCfPoll
  | qosDataCfAckCfPoll =>
    simp only [DataKept, bodyless, Bool.false_eq_true, false_imp_iff]
    exact hwith
  | reserved13 =>
    simp only [DataKept, bodyless, Bool.false_eq_true, false_imp_iff]
    exact restores_greedyBody b

theorem restores_body (fc : FrameControl) (b : Bytes) :
    Restores (frameTypeParsers fc) b (BodyKept fc b) := by
  simp only [frameTypeParsers, BodyKept]
  generalize fc.type = type
  generalize fc.subtype = subtype
  cases type <;> cases subtype <;>
    first | exact restores_management _ b | exact restores_data fc _ b | exact restores_greedyBody b

abbrev frameTail (fc : FrameControl) :=
  int16ul.pair <| addressField.pair <|
    (optional (fc.type ≠ .control) addressField).pair <|
    (optional (fc.type ≠ .control) addressField).pair <|
    (optional (fc.type = .control) greedyBytes).pair <|
    (optional (fc.type ≠ .control) sequenceControl).pair <|
    optional (fc.type ≠ .control) (frameTypeParsers fc)

theorem controlData_rest (fc : FrameControl) (b : Bytes) (a) (s : Bytes)
    (h : ((optional true greedyBytes).pair <| (optional false sequenceControl).pair <|
      optional false (frameTypeParsers fc)).parse b = .ok (a, s)) : s = [] := by
  obtain ⟨data, control, body⟩ := a
  obtain ⟨r, hr, h⟩ := (seq_parse _ _).mp h
  obtain ⟨t, ht, h⟩ := (seq_parse _ _).mp h
  obtain ⟨c, hc, -⟩ := (variant_parse _).mp hr
  cases ht
  cases h
  cases hc
  rfl

theorem restores_frameTail (fc : FrameControl) (b : Bytes) :
    Restores (frameTail fc) b (BodyKept fc (b.drop 22)) := by
  by_cases h : fc.type = .control
  · have hkept : BodyKept fc (b.drop 22) ↔ True := by simp [BodyKept, h]
    simp only [frameTail, h, ne_eq, not_true_eq_false, decide_false, decide_true, hkept]
    exact restores_pair <| restores_pair <| restores_pair <| restores_pair <|
      restores_all (controlData_rest fc _)
  · simp only [frameTail, h, ne_eq, not_false_eq_true, decide_false, decide_true]
    refine restores_pair <| restores_pair <| restores_pair <| restores_pair <| restores_pair <|
      restores_pair <| restores_present ?_
    simp only [List.drop_drop, if_true]
    exact restores_body fc _

theorem restores_frame (b : Bytes) : Restores wifiFrameHeader b (FrameKept b) := by
  refine restores_map (restores_seq fun fc hfc => ?_) fun _ => rfl
  obtain ⟨hlen, -⟩ := sized_drop hfc
  match b, hlen, hfc with
  | x :: y :: s, _, hfc =>
    rw [frameControl_parse] at hfc
    cases hfc
    exact restores_frameTail _ s

/-- A frame that parses can be built, and gives its bytes back exactly if
everything in it is kept. -/
theorem rebuilt_iff (b : Bytes) (v : WifiFrame) (h : wifiFrameHeader.parseAll b = .ok v) :
    (∃ w, wifiFrameHeader.build v = .ok w) ∧ (wifiFrameHeader.build v = .ok b ↔ FrameKept b) := by
  obtain ⟨s, hp⟩ := (parseAll_ok _).mp h
  obtain ⟨w, hbuild, hiff⟩ := restores_frame b v s hp
  exact ⟨⟨w, hbuild⟩, by rw [hbuild, Except.ok.injEq, hiff]⟩

/-- A null function frame with its frame check sequence still behind it. -/
def nullFunction : Bytes :=
  [0x48, 0, 0, 0, 2, 0, 0, 0, 0, 1, 2, 0, 0, 0, 0, 2, 2, 0, 0, 0, 0, 1, 16, 0, 1, 2, 3, 4]

def nullFunctionFrame : WifiFrame where
  frameControl := frameControlOf 0x48 0
  durationId := 0
  address1 := "02:00:00:00:00:01".toList
  address2 := some "02:00:00:00:00:02".toList
  address3 := some "02:00:00:00:00:01".toList
  controlData := none
  sequenceControl := some (0, 1)
  frameBody := some (.dataWithoutBody ⟨none, none, none⟩)

/-- Without the check sequence the frame is rebuilt. -/
theorem rebuilt_nullFunction :
    wifiFrameHeader.parseAll (nullFunction.take 24) = .ok nullFunctionFrame ∧
      FrameKept (nullFunction.take 24) ∧
      wifiFrameHeader.build nullFunctionFrame = .ok (nullFunction.take 24) := by
  have hparse : wifiFrameHeader.parseAll (nullFunction.take 24) = .ok nullFunctionFrame := by
    decide +kernel
  have hkept : FrameKept (nullFunction.take 24) := fun _ => by decide +kernel
  exact ⟨hparse, hkept, (rebuilt_iff _ nullFunctionFrame hparse).2.mpr hkept⟩

theorem check_sequence_dropped : ∃ v, wifiFrameHeader.parseAll nullFunction = .ok v ∧
    wifiFrameHeader.build v ≠ .ok nullFunction :=
  ⟨nullFunctionFrame, by decide +kernel, by decide +kernel⟩

end InVehicle.WlanRebuild
