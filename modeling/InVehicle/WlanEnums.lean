import Mathlib.Tactic.IntervalCases

/-!
# The enumerations of the 802.11 grammar

`decode` reads a number, `encode` gives it back. A number without a name stays
itself where the field is wider than the names; `__default__` is one more name
to the enumerations that give it, and no number has it.
-/

set_option autoImplicit false

namespace InVehicle.WlanEnums

theorem decode_iff {α : Type} {decode : ℕ → α} {encode : α → ℕ}
    (h : ∀ n, encode (decode n) = n) {a : α} (ha : decode (encode a) = a) (n : ℕ) :
    decode n = a ↔ n = encode a :=
  ⟨fun hn => by rw [← hn, h], fun hn => by rw [hn, ha]⟩

inductive FrameType where
  | management
  | control
  | data
  | extension
  deriving DecidableEq, Repr

def FrameType.decode : ℕ → FrameType
  | 0 => .management
  | 1 => .control
  | 2 => .data
  | _ => .extension

def FrameType.encode : FrameType → ℕ
  | .management => 0
  | .control => 1
  | .data => 2
  | .extension => 3

theorem FrameType.encode_decode (n : ℕ) (h : n < 4) :
    FrameType.encode (FrameType.decode n) = n := by
  interval_cases n <;> rfl

inductive ManagementSubtype where
  | associationRequest
  | associationResponse
  | reassociationRequest
  | reassociationResponse
  | probeRequest
  | probeResponse
  | timingAdvertisement
  | reserved1
  | beacon
  | atim
  | disassociation
  | authentication
  | deauthentication
  | action
  | actionNoAck
  | reserved2
  deriving DecidableEq, Repr

def ManagementSubtype.decode : ℕ → ManagementSubtype
  | 0 => .associationRequest
  | 1 => .associationResponse
  | 2 => .reassociationRequest
  | 3 => .reassociationResponse
  | 4 => .probeRequest
  | 5 => .probeResponse
  | 6 => .timingAdvertisement
  | 7 => .reserved1
  | 8 => .beacon
  | 9 => .atim
  | 10 => .disassociation
  | 11 => .authentication
  | 12 => .deauthentication
  | 13 => .action
  | 14 => .actionNoAck
  | _ => .reserved2

def ManagementSubtype.encode : ManagementSubtype → ℕ
  | .associationRequest => 0
  | .associationResponse => 1
  | .reassociationRequest => 2
  | .reassociationResponse => 3
  | .probeRequest => 4
  | .probeResponse => 5
  | .timingAdvertisement => 6
  | .reserved1 => 7
  | .beacon => 8
  | .atim => 9
  | .disassociation => 10
  | .authentication => 11
  | .deauthentication => 12
  | .action => 13
  | .actionNoAck => 14
  | .reserved2 => 15

theorem ManagementSubtype.encode_decode (n : ℕ) (h : n < 16) :
    ManagementSubtype.encode (ManagementSubtype.decode n) = n := by
  interval_cases n <;> rfl

inductive ControlSubtype where
  | reserved0
  | reserved1
  | trigger
  | tack
  | beamformingReportPoll
  | vhtNdpAnnouncement
  | controlFrameExtension
  | controlWrapper
  | blockAckRequest
  | blockAck
  | psPoll
  | rts
  | cts
  | ack
  | cfEnd
  | cfEndCfAck
  deriving DecidableEq, Repr

def ControlSubtype.decode : ℕ → ControlSubtype
  | 0 => .reserved0
  | 1 => .reserved1
  | 2 => .trigger
  | 3 => .tack
  | 4 => .beamformingReportPoll
  | 5 => .vhtNdpAnnouncement
  | 6 => .controlFrameExtension
  | 7 => .controlWrapper
  | 8 => .blockAckRequest
  | 9 => .blockAck
  | 10 => .psPoll
  | 11 => .rts
  | 12 => .cts
  | 13 => .ack
  | 14 => .cfEnd
  | _ => .cfEndCfAck

def ControlSubtype.encode : ControlSubtype → ℕ
  | .reserved0 => 0
  | .reserved1 => 1
  | .trigger => 2
  | .tack => 3
  | .beamformingReportPoll => 4
  | .vhtNdpAnnouncement => 5
  | .controlFrameExtension => 6
  | .controlWrapper => 7
  | .blockAckRequest => 8
  | .blockAck => 9
  | .psPoll => 10
  | .rts => 11
  | .cts => 12
  | .ack => 13
  | .cfEnd => 14
  | .cfEndCfAck => 15

theorem ControlSubtype.encode_decode (n : ℕ) (h : n < 16) :
    ControlSubtype.encode (ControlSubtype.decode n) = n := by
  interval_cases n <;> rfl

inductive DataSubtype where
  | data
  | dataCfAck
  | dataCfPoll
  | dataCfAckCfPoll
  | nullFunction
  | cfAck
  | cfPoll
  | cfAckCfPoll
  | qosData
  | qosDataCfAck
  | qosDataCfPoll
  | qosDataCfAckCfPoll
  | qosNull
  | reserved13
  | qosCfPollNoData
  | qosCfAckCfPollNoData
  deriving DecidableEq, Repr

def DataSubtype.decode : ℕ → DataSubtype
  | 0 => .data
  | 1 => .dataCfAck
  | 2 => .dataCfPoll
  | 3 => .dataCfAckCfPoll
  | 4 => .nullFunction
  | 5 => .cfAck
  | 6 => .cfPoll
  | 7 => .cfAckCfPoll
  | 8 => .qosData
  | 9 => .qosDataCfAck
  | 10 => .qosDataCfPoll
  | 11 => .qosDataCfAckCfPoll
  | 12 => .qosNull
  | 13 => .reserved13
  | 14 => .qosCfPollNoData
  | _ => .qosCfAckCfPollNoData

def DataSubtype.encode : DataSubtype → ℕ
  | .data => 0
  | .dataCfAck => 1
  | .dataCfPoll => 2
  | .dataCfAckCfPoll => 3
  | .nullFunction => 4
  | .cfAck => 5
  | .cfPoll => 6
  | .cfAckCfPoll => 7
  | .qosData => 8
  | .qosDataCfAck => 9
  | .qosDataCfPoll => 10
  | .qosDataCfAckCfPoll => 11
  | .qosNull => 12
  | .reserved13 => 13
  | .qosCfPollNoData => 14
  | .qosCfAckCfPollNoData => 15

def DataSubtype.label : DataSubtype → String
  | .data => "DATA"
  | .dataCfAck => "DATA_CF_ACK"
  | .dataCfPoll => "DATA_CF_POLL"
  | .dataCfAckCfPoll => "DATA_CF_ACK_CF_POLL"
  | .nullFunction => "NULL_FUNCTION"
  | .cfAck => "CF_ACK"
  | .cfPoll => "CF_POLL"
  | .cfAckCfPoll => "CF_ACK_CF_POLL"
  | .qosData => "QOS_DATA"
  | .qosDataCfAck => "QOS_DATA_CF_ACK"
  | .qosDataCfPoll => "QOS_DATA_CF_POLL"
  | .qosDataCfAckCfPoll => "QOS_DATA_CF_ACK_CF_POLL"
  | .qosNull => "QOS_NULL"
  | .reserved13 => "RESERVED_13"
  | .qosCfPollNoData => "QOS_CF_POLL_NO_DATA"
  | .qosCfAckCfPollNoData => "QOS_CF_ACK_CF_POLL_NO_DATA"

theorem DataSubtype.encode_decode (n : ℕ) (h : n < 16) :
    DataSubtype.encode (DataSubtype.decode n) = n := by
  interval_cases n <;> rfl

inductive ExtensionSubtype where
  | dmgBeacon
  | s1gBeacon
  | reserved2
  | reserved3
  | reserved4
  | reserved5
  | reserved6
  | reserved7
  | reserved8
  | reserved9
  | reserved10
  | reserved11
  | reserved12
  | reserved13
  | reserved14
  | reserved15
  deriving DecidableEq, Repr

def ExtensionSubtype.decode : ℕ → ExtensionSubtype
  | 0 => .dmgBeacon
  | 1 => .s1gBeacon
  | 2 => .reserved2
  | 3 => .reserved3
  | 4 => .reserved4
  | 5 => .reserved5
  | 6 => .reserved6
  | 7 => .reserved7
  | 8 => .reserved8
  | 9 => .reserved9
  | 10 => .reserved10
  | 11 => .reserved11
  | 12 => .reserved12
  | 13 => .reserved13
  | 14 => .reserved14
  | _ => .reserved15

def ExtensionSubtype.encode : ExtensionSubtype → ℕ
  | .dmgBeacon => 0
  | .s1gBeacon => 1
  | .reserved2 => 2
  | .reserved3 => 3
  | .reserved4 => 4
  | .reserved5 => 5
  | .reserved6 => 6
  | .reserved7 => 7
  | .reserved8 => 8
  | .reserved9 => 9
  | .reserved10 => 10
  | .reserved11 => 11
  | .reserved12 => 12
  | .reserved13 => 13
  | .reserved14 => 14
  | .reserved15 => 15

theorem ExtensionSubtype.encode_decode (n : ℕ) (h : n < 16) :
    ExtensionSubtype.encode (ExtensionSubtype.decode n) = n := by
  interval_cases n <;> rfl

inductive VendorOui where
  | ieee
  | microsoftCorp
  | other (n : ℕ)
  deriving DecidableEq, Repr

def VendorOui.decode : ℕ → VendorOui
  | 0x000FAC => .ieee
  | 0x0050f2 => .microsoftCorp
  | n => .other n

def VendorOui.encode : VendorOui → ℕ
  | .ieee => 0x000FAC
  | .microsoftCorp => 0x0050f2
  | .other n => n

theorem VendorOui.encode_decode (n : ℕ) : VendorOui.encode (VendorOui.decode n) = n := by
  unfold VendorOui.decode
  split <;> rfl

inductive IEType where
  | ssid
  | supportedRates
  | fhParameterSet
  | dsParameterSet
  | cfParameterSet
  | tim
  | ibssParameterSet
  | country
  | request
  | bssLoad
  | edcaParameterSet
  | tspec
  | tclas
  | schedule
  | challengeText
  | powerConstraint
  | powerCapability
  | tpcRequest
  | tpcReport
  | supportedChannels
  | channelSwitchAnnouncement
  | measurementRequest
  | measurementReport
  | quiet
  | ibssDfs
  | erpInfo
  | tsDelay
  | tclasProcessing
  | htCapabilities
  | qosCapability
  | resurved47
  | rsn
  | extendedSupportedRates
  | rsni
  | ssidList
  | internetworking
  | extendedCapabilities
  | vendorSpecific
  | rsnExtension
  | extendedId
  | other (n : ℕ)
  deriving DecidableEq, Repr

def IEType.decode : ℕ → IEType
  | 0 => .ssid
  | 1 => .supportedRates
  | 2 => .fhParameterSet
  | 3 => .dsParameterSet
  | 4 => .cfParameterSet
  | 5 => .tim
  | 6 => .ibssParameterSet
  | 7 => .country
  | 10 => .request
  | 11 => .bssLoad
  | 12 => .edcaParameterSet
  | 13 => .tspec
  | 14 => .tclas
  | 15 => .schedule
  | 16 => .challengeText
  | 32 => .powerConstraint
  | 33 => .powerCapability
  | 34 => .tpcRequest
  | 35 => .tpcReport
  | 36 => .supportedChannels
  | 37 => .channelSwitchAnnouncement
  | 38 => .measurementRequest
  | 39 => .measurementReport
  | 40 => .quiet
  | 41 => .ibssDfs
  | 42 => .erpInfo
  | 43 => .tsDelay
  | 44 => .tclasProcessing
  | 45 => .htCapabilities
  | 46 => .qosCapability
  | 47 => .resurved47
  | 48 => .rsn
  | 50 => .extendedSupportedRates
  | 65 => .rsni
  | 84 => .ssidList
  | 107 => .internetworking
  | 127 => .extendedCapabilities
  | 221 => .vendorSpecific
  | 244 => .rsnExtension
  | 255 => .extendedId
  | n => .other n

def IEType.encode : IEType → ℕ
  | .ssid => 0
  | .supportedRates => 1
  | .fhParameterSet => 2
  | .dsParameterSet => 3
  | .cfParameterSet => 4
  | .tim => 5
  | .ibssParameterSet => 6
  | .country => 7
  | .request => 10
  | .bssLoad => 11
  | .edcaParameterSet => 12
  | .tspec => 13
  | .tclas => 14
  | .schedule => 15
  | .challengeText => 16
  | .powerConstraint => 32
  | .powerCapability => 33
  | .tpcRequest => 34
  | .tpcReport => 35
  | .supportedChannels => 36
  | .channelSwitchAnnouncement => 37
  | .measurementRequest => 38
  | .measurementReport => 39
  | .quiet => 40
  | .ibssDfs => 41
  | .erpInfo => 42
  | .tsDelay => 43
  | .tclasProcessing => 44
  | .htCapabilities => 45
  | .qosCapability => 46
  | .resurved47 => 47
  | .rsn => 48
  | .extendedSupportedRates => 50
  | .rsni => 65
  | .ssidList => 84
  | .internetworking => 107
  | .extendedCapabilities => 127
  | .vendorSpecific => 221
  | .rsnExtension => 244
  | .extendedId => 255
  | .other n => n

theorem IEType.encode_decode (n : ℕ) : IEType.encode (IEType.decode n) = n := by
  unfold IEType.decode
  split <;> rfl

inductive AKMSuites where
  | ieeeReserved
  | ieee8021x
  | ieeePsk
  | ieeeFt8021x
  | ieeeFtPsk
  | ieee8021xSha256
  | ieeePskSha256
  | ieeeTdls
  | ieeeSae
  | ieeeFtSae
  | ieeeApPeerKey
  | ieee8021xSuiteB
  | ieee8021xSuiteB192
  | ieeeFilsSha256
  | ieeeFilsSha384
  | ieeeFtFilsSha256
  | ieeeFtFilsSha384
  | ieeeOwe
  | other (n : ℕ)
  deriving DecidableEq, Repr

def AKMSuites.decode : ℕ → AKMSuites
  | 0x000FAC00 => .ieeeReserved
  | 0x000FAC01 => .ieee8021x
  | 0x000FAC02 => .ieeePsk
  | 0x000FAC03 => .ieeeFt8021x
  | 0x000FAC04 => .ieeeFtPsk
  | 0x000FAC05 => .ieee8021xSha256
  | 0x000FAC06 => .ieeePskSha256
  | 0x000FAC07 => .ieeeTdls
  | 0x000FAC08 => .ieeeSae
  | 0x000FAC09 => .ieeeFtSae
  | 0x000FAC0A => .ieeeApPeerKey
  | 0x000FAC0B => .ieee8021xSuiteB
  | 0x000FAC0C => .ieee8021xSuiteB192
  | 0x000FAC0D => .ieeeFilsSha256
  | 0x000FAC0E => .ieeeFilsSha384
  | 0x000FAC0F => .ieeeFtFilsSha256
  | 0x000FAC10 => .ieeeFtFilsSha384
  | 0x000FAC11 => .ieeeOwe
  | n => .other n

def AKMSuites.encode : AKMSuites → ℕ
  | .ieeeReserved => 0x000FAC00
  | .ieee8021x => 0x000FAC01
  | .ieeePsk => 0x000FAC02
  | .ieeeFt8021x => 0x000FAC03
  | .ieeeFtPsk => 0x000FAC04
  | .ieee8021xSha256 => 0x000FAC05
  | .ieeePskSha256 => 0x000FAC06
  | .ieeeTdls => 0x000FAC07
  | .ieeeSae => 0x000FAC08
  | .ieeeFtSae => 0x000FAC09
  | .ieeeApPeerKey => 0x000FAC0A
  | .ieee8021xSuiteB => 0x000FAC0B
  | .ieee8021xSuiteB192 => 0x000FAC0C
  | .ieeeFilsSha256 => 0x000FAC0D
  | .ieeeFilsSha384 => 0x000FAC0E
  | .ieeeFtFilsSha256 => 0x000FAC0F
  | .ieeeFtFilsSha384 => 0x000FAC10
  | .ieeeOwe => 0x000FAC11
  | .other n => n

theorem AKMSuites.encode_decode (n : ℕ) : AKMSuites.encode (AKMSuites.decode n) = n := by
  unfold AKMSuites.decode
  split <;> rfl

inductive RSNCipherSuites where
  | ieeeWep40
  | ieeeTkip
  | ieeeCcmp
  | ieeeWep104
  | ieeeBipCmac128
  | ieeeGcmp128
  | ieeeGcmp256
  | ieeeCcmp256
  | ieeeBipGmac128
  | ieeeBipGmac256
  | ieeeBipCmac256
  | other (n : ℕ)
  deriving DecidableEq, Repr

def RSNCipherSuites.decode : ℕ → RSNCipherSuites
  | 0x000FAC01 => .ieeeWep40
  | 0x000FAC02 => .ieeeTkip
  | 0x000FAC04 => .ieeeCcmp
  | 0x000FAC05 => .ieeeWep104
  | 0x000FAC06 => .ieeeBipCmac128
  | 0x000FAC08 => .ieeeGcmp128
  | 0x000FAC09 => .ieeeGcmp256
  | 0x000FAC0A => .ieeeCcmp256
  | 0x000FAC0B => .ieeeBipGmac128
  | 0x000FAC0C => .ieeeBipGmac256
  | 0x000FAC0D => .ieeeBipCmac256
  | n => .other n

def RSNCipherSuites.encode : RSNCipherSuites → ℕ
  | .ieeeWep40 => 0x000FAC01
  | .ieeeTkip => 0x000FAC02
  | .ieeeCcmp => 0x000FAC04
  | .ieeeWep104 => 0x000FAC05
  | .ieeeBipCmac128 => 0x000FAC06
  | .ieeeGcmp128 => 0x000FAC08
  | .ieeeGcmp256 => 0x000FAC09
  | .ieeeCcmp256 => 0x000FAC0A
  | .ieeeBipGmac128 => 0x000FAC0B
  | .ieeeBipGmac256 => 0x000FAC0C
  | .ieeeBipCmac256 => 0x000FAC0D
  | .other n => n

theorem RSNCipherSuites.encode_decode (n : ℕ) :
    RSNCipherSuites.encode (RSNCipherSuites.decode n) = n := by
  unfold RSNCipherSuites.decode
  split <;> rfl

inductive MicrosoftSpecificElementType where
  | wpa
  | other (n : ℕ)
  deriving DecidableEq, Repr

def MicrosoftSpecificElementType.decode : ℕ → MicrosoftSpecificElementType
  | 1 => .wpa
  | n => .other n

def MicrosoftSpecificElementType.encode : MicrosoftSpecificElementType → ℕ
  | .wpa => 1
  | .other n => n

theorem MicrosoftSpecificElementType.encode_decode (n : ℕ) :
    MicrosoftSpecificElementType.encode (MicrosoftSpecificElementType.decode n) = n := by
  unfold MicrosoftSpecificElementType.decode
  split <;> rfl

end InVehicle.WlanEnums
