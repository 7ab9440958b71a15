import InVehicle.WlanElements

/-!
# The 802.11 frame grammar

The frame header, the management and data bodies and `wifi_frame_header`, under
their names in the parser. The type and subtype of the frame control decide which
fields follow.
-/

set_option autoImplicit false

namespace InVehicle.WlanFrame
open InVehicle.Words InVehicle.Formats InVehicle.Formats.Format InVehicle.TextCodecs
open InVehicle.WlanEnums InVehicle.WlanElements

inductive Subtype where
  | management (s : ManagementSubtype)
  | control (s : ControlSubtype)
  | data (s : DataSubtype)
  | extension (s : ExtensionSubtype)
  deriving DecidableEq, Repr

structure FrameControl where
  protocolVersion : ℕ
  type : FrameType
  subtype : Subtype
  toDs : Bool
  fromDs : Bool
  moreFragments : Bool
  retry : Bool
  powerManagement : Bool
  moreData : Bool
  protectedFrame : Bool
  orderOrPHTC : Bool
  deriving DecidableEq, Repr

abbrev frameType : Format Bool FrameType :=
  (swapBitsAdapter 2).map FrameType.decode FrameType.encode

def subtype : FrameType → Format Bool Subtype
  | .management =>
    (swapBitsAdapter 4).variant (fun n => .management (ManagementSubtype.decode n)) fun
      | .management s => some (ManagementSubtype.encode s)
      | _ => none
  | .control =>
    (swapBitsAdapter 4).variant (fun n => .control (ControlSubtype.decode n)) fun
      | .control s => some (ControlSubtype.encode s)
      | _ => none
  | .data =>
    (swapBitsAdapter 4).variant (fun n => .data (DataSubtype.decode n)) fun
      | .data s => some (DataSubtype.encode s)
      | _ => none
  | .extension =>
    (swapBitsAdapter 4).variant (fun n => .extension (ExtensionSubtype.decode n)) fun
      | .extension s => some (ExtensionSubtype.encode s)
      | _ => none

abbrev frameControlBits :=
  (swapBitsAdapter 2).pair <| frameType.seq fun type => (subtype type).pair <|
    flag.pair <| flag.pair <| flag.pair <| flag.pair <| flag.pair <| flag.pair <| flag.pair flag

def frameControl : Format UInt8 FrameControl :=
  (bitStruct true 2 frameControlBits).map
    (fun ⟨a, b, c, d, e, f, g, h, i, j, k⟩ => ⟨a, b, c, d, e, f, g, h, i, j, k⟩)
    (fun ⟨a, b, c, d, e, f, g, h, i, j, k⟩ => ⟨a, b, c, d, e, f, g, h, i, j, k⟩)

structure QoSControl where
  tid : ℕ
  eos : Bool
  ackPolicy : ℕ
  amsduPresent : Bool
  txopDurReq : ℕ
  deriving DecidableEq, Repr

abbrev qosControlBits :=
  (bitsInteger 4).pair <| flag.pair <| (bitsInteger 2).pair <| flag.pair (bitsInteger 8)

def qosControl : Format UInt8 QoSControl :=
  (bitStruct false 2 qosControlBits).map
    (fun ⟨a, b, c, d, e⟩ => ⟨a, b, c, d, e⟩) (fun ⟨a, b, c, d, e⟩ => ⟨a, b, c, d, e⟩)

structure DataFrameHeader where
  address4 : Option Text
  qosControl : Option QoSControl
  htControl : Option ℕ
  deriving DecidableEq, Repr

/-- A subtype is a string where it is compared: the order is that of the names. -/
def hasQoSControl (s : DataSubtype) : Bool := DataSubtype.qosData.label ≤ s.label

/-- `and` between two expressions is the second one: the subtype does not count
for the HT control field. -/
def dataFrameHeader (fc : FrameControl) (s : DataSubtype) : Format UInt8 DataFrameHeader :=
  ((optional (fc.toDs && fc.fromDs) addressField).pair <|
    (optional (hasQoSControl s) qosControl).pair <| optional fc.orderOrPHTC int32ul).map
    (fun ⟨a, b, c⟩ => ⟨a, b, c⟩) (fun ⟨a, b, c⟩ => ⟨a, b, c⟩)

structure VendorSpecificElement where
  id : ℕ
  len : ℕ
  content : Bytes
  deriving DecidableEq, Repr

def vendorSpecificElement : Format UInt8 VendorSpecificElement :=
  (byteField.pair <| byteField.seq fun len => bytes len).map
    (fun ⟨id, len, content⟩ => ⟨id, len, content⟩) (fun ⟨id, len, content⟩ => ⟨id, len, content⟩)

inductive FrameBody where
  | associationRequest (capabilityInfo : CapabilityInfo) (listenInterval : ℕ)
      (informationElements : List InformationElement)
  | associationResponse (capabilityInfo : CapabilityInfo) (statusCode associationId : ℕ)
      (informationElements : List InformationElement)
  | reassociationRequest (capabilityInfo : CapabilityInfo) (listenInterval : ℕ)
      (currentApAddress : Text) (informationElements : List InformationElement)
  | probeRequest (informationElements : List InformationElement)
  | probeResponse (timestamp beaconInterval : ℕ) (capabilityInfo : CapabilityInfo)
      (informationElements : List InformationElement)
  | beacon (timestamp beaconInterval : ℕ) (capabilityInfo : CapabilityInfo)
      (informationElements : List InformationElement) (mme : Bytes)
  | disassociation (reasonCode : ℕ) (vendorSpecificElements : List VendorSpecificElement)
      (mme : Bytes)
  | authentication (authAlgorithmNumber authTransactionSequenceNumber statusCode : ℕ)
      (challengeText : Bytes)
  | action (category : ℕ) (actionDetails : Bytes)
  | dataWithBody (header : DataFrameHeader) (data : Bytes)
  | dataWithoutBody (header : DataFrameHeader)
  | bytes (b : Bytes)
  deriving DecidableEq, Repr

def greedyBody : Format UInt8 FrameBody :=
  greedyBytes.variant .bytes fun
    | .bytes b => some b
    | _ => none

def associationRequest : Format UInt8 FrameBody :=
  (capabilityInfo.pair <| int16ul.pair informationElements).variant
    (fun ⟨a, b, es⟩ => .associationRequest a b es) fun
      | .associationRequest a b es => some (a, b, es)
      | _ => none

def associationResponse : Format UInt8 FrameBody :=
  (capabilityInfo.pair <| int16ul.pair <| int16ul.pair informationElements).variant
    (fun ⟨a, b, c, es⟩ => .associationResponse a b c es) fun
      | .associationResponse a b c es => some (a, b, c, es)
      | _ => none

def reassociationRequest : Format UInt8 FrameBody :=
  (capabilityInfo.pair <| int16ul.pair <| addressField.pair informationElements).variant
    (fun ⟨a, b, c, es⟩ => .reassociationRequest a b c es) fun
      | .reassociationRequest a b c es => some (a, b, c, es)
      | _ => none

def probeRequest : Format UInt8 FrameBody :=
  informationElements.variant .probeRequest fun
    | .probeRequest es => some es
    | _ => none

def probeResponse : Format UInt8 FrameBody :=
  (int64ul.pair <| int16ul.pair <| capabilityInfo.pair informationElements).variant
    (fun ⟨a, b, c, es⟩ => .probeResponse a b c es) fun
      | .probeResponse a b c es => some (a, b, c, es)
      | _ => none

def beacon : Format UInt8 FrameBody :=
  (int64ul.pair <| int16ul.pair <| capabilityInfo.pair <|
    informationElements.pair greedyBytes).variant
    (fun ⟨a, b, c, es, mme⟩ => .beacon a b c es mme) fun
      | .beacon a b c es mme => some (a, b, c, es, mme)
      | _ => none

def disassociation : Format UInt8 FrameBody :=
  (int16ul.pair <| vendorSpecificElement.greedyRange.pair greedyBytes).variant
    (fun ⟨a, es, mme⟩ => .disassociation a es mme) fun
      | .disassociation a es mme => some (a, es, mme)
      | _ => none

def authentication : Format UInt8 FrameBody :=
  (int16ul.pair <| int16ul.pair <| int16ul.pair greedyBytes).variant
    (fun ⟨a, b, c, text⟩ => .authentication a b c text) fun
      | .authentication a b c text => some (a, b, c, text)
      | _ => none

def action : Format UInt8 FrameBody :=
  (byteField.pair greedyBytes).variant (fun ⟨a, details⟩ => .action a details) fun
    | .action a details => some (a, details)
    | _ => none

def managementSubtypeParsers : ManagementSubtype → Format UInt8 FrameBody
  | .associationRequest => associationRequest
  | .associationResponse => associationResponse
  | .reassociationRequest => reassociationRequest
  | .reassociationResponse => associationResponse
  | .probeRequest => probeRequest
  | .probeResponse => probeResponse
  | .beacon => beacon
  | .disassociation => disassociation
  | .authentication => authentication
  | .deauthentication => disassociation
  | .action => action
  | .actionNoAck => action
  | .timingAdvertisement | .reserved1 | .atim | .reserved2 => greedyBody

def dataFrameWithBody (fc : FrameControl) (s : DataSubtype) : Format UInt8 FrameBody :=
  ((dataFrameHeader fc s).pair greedyBytes).variant (fun ⟨h, data⟩ => .dataWithBody h data) fun
    | .dataWithBody h data => some (h, data)
    | _ => none

def dataFrameWithoutBody (fc : FrameControl) (s : DataSubtype) : Format UInt8 FrameBody :=
  (dataFrameHeader fc s).variant .dataWithoutBody fun
    | .dataWithoutBody h => some h
    | _ => none

def dataSubtypeParsers (fc : FrameControl) (s : DataSubtype) : Format UInt8 FrameBody :=
  match s with
  | .data | .dataCfAck | .dataCfPoll | .dataCfAckCfPoll => dataFrameWithBody fc s
  | .nullFunction | .cfAck | .cfPoll | .cfAckCfPoll => dataFrameWithoutBody fc s
  | .qosData | .qosDataCfAck | .qosDataCfPoll | .qosDataCfAckCfPoll => dataFrameWithBody fc s
  | .qosNull => dataFrameWithoutBody fc s
  | .reserved13 => greedyBody
  | .qosCfPollNoData | .qosCfAckCfPollNoData => dataFrameWithoutBody fc s

/-- `frame_type_parsers` with its default. Control frames do not come here. -/
def frameTypeParsers (fc : FrameControl) : Format UInt8 FrameBody :=
  match fc.type, fc.subtype with
  | .management, .management s => managementSubtypeParsers s
  | .data, .data s => dataSubtypeParsers fc s
  | _, _ => greedyBody

abbrev sequenceControlBits := (swapBitsAdapter 4).pair (swapBitsAdapter 12)

abbrev sequenceControl : Format UInt8 (ℕ × ℕ) := bitStruct true 2 sequenceControlBits

structure WifiFrame where
  frameControl : FrameControl
  durationId : ℕ
  address1 : Text
  address2 : Option Text
  address3 : Option Text
  controlData : Option Bytes
  sequenceControl : Option (ℕ × ℕ)
  frameBody : Option FrameBody
  deriving DecidableEq, Repr

def wifiFrameHeader : Format UInt8 WifiFrame :=
  (frameControl.seq fun fc => int16ul.pair <| addressField.pair <|
    (optional (fc.type ≠ .control) addressField).pair <|
    (optional (fc.type ≠ .control) addressField).pair <|
    (optional (fc.type = .control) greedyBytes).pair <|
    (optional (fc.type ≠ .control) sequenceControl).pair <|
    optional (fc.type ≠ .control) (frameTypeParsers fc)).map
    (fun ⟨a, b, c, d, e, f, g, h⟩ => ⟨a, b, c, d, e, f, g, h⟩)
    (fun ⟨a, b, c, d, e, f, g, h⟩ => ⟨a, b, c, d, e, f, g, h⟩)

end InVehicle.WlanFrame
