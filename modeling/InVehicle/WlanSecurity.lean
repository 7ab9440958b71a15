import InVehicle.WlanFrame

/-!
# The packet of a captured frame and its security

`WiFiPacket` parses the bytes behind the radiotap header, collects the elements of
the frame by their id and classifies the security from them.
-/

set_option autoImplicit false

namespace InVehicle.WlanSecurity
open InVehicle.Formats InVehicle.Formats.Format InVehicle.WlanEnums InVehicle.WlanElements
open InVehicle.WlanFrame

inductive WiFiSecurity where
  | unknown
  | open
  | wep
  | wpa
  | wpa2
  | wpa3
  | wpa3Tran
  deriving DecidableEq, Repr

def repeatingElementTypes : List IEType :=
  [.vendorSpecific, .extendedId, .internetworking, .extendedCapabilities]

inductive Entry where
  | single (element : InformationElement)
  | repeated (elements : List InformationElement)
  deriving DecidableEq, Repr

abbrev Elements := IEType → Option Entry

def repeatedOf : Option Entry → List InformationElement
  | some (.repeated es) => es
  | _ => []

/-- An element that does not repeat is kept once: a later one of the same id is
at most logged. -/
def addElement (elements : Elements) (e : InformationElement) : Elements :=
  if e.id ∈ repeatingElementTypes then
    Function.update elements e.id (some (.repeated (repeatedOf (elements e.id) ++ [e])))
  else if (elements e.id).isSome then elements
  else Function.update elements e.id (some (.single e))

/-- The attribute `information_elements` of a body, `[]` where it has none. -/
def bodyElements : FrameBody → List InformationElement
  | .associationRequest _ _ es | .associationResponse _ _ _ es | .reassociationRequest _ _ _ es
  | .probeRequest es | .probeResponse _ _ _ es | .beacon _ _ _ es _ => es
  | _ => []

def parseIeElements (frame : WifiFrame) : Elements :=
  match frame.frameBody with
  | some body => (bodyElements body).foldl addElement fun _ => none
  | none => fun _ => none

structure WiFiPacket where
  parsedData : WifiFrame
  elements : Elements

/-- The constructor, on the bytes behind the radiotap header. An error of the
library is logged, and the elements are then asked of a packet without data. -/
def init (packetData : Bytes) : Except Failure WiFiPacket :=
  match wifiFrameHeader.parseAll packetData with
  | .error .construct => .error .attributeError
  | .error e => .error e
  | .ok frame =>
    match wifiFrameHeader.build frame with
    | .ok _ | .error .construct => .ok ⟨frame, parseIeElements frame⟩
    | .error e => .error e

/-- The test of one vendor element: its attributes are asked for without a look
at whether they are there. -/
def isWpa (e : InformationElement) : Except Failure Bool :=
  match e.info with
  | some (.vendorSpecific .microsoftCorp (.microsoft type _)) => .ok (type = .wpa)
  | some (.vendorSpecific .microsoftCorp (.other _)) => .error .attributeError
  | some (.vendorSpecific _ _) => .ok false
  | _ => .error .attributeError

def anyWpa : List InformationElement → Except Failure Bool
  | [] => .ok false
  | e :: es => do
    if ← isWpa e then return true
    anyWpa es

def wpa3MustAuth : List AKMSuites := [.ieeeSae]
def wpa3BadAuth : List AKMSuites := [.ieeePsk, .ieeePskSha256]
def wpa3BadCiphers : List RSNCipherSuites := [.ieeeWep40, .ieeeTkip, .ieeeWep104]
def wpa3TranMustAuth : List AKMSuites := [.ieeePsk, .ieeeSae]

def ciphers (rsn : RsnElement) : List RSNCipherSuites :=
  rsn.groupCipherSuite :: rsn.pairwiseCipherSuites ++ rsn.groupManagmentCipherSuite.toList

def rsnSecurity (rsn : RsnElement) : WiFiSecurity :=
  match rsn.rsnCapabilities with
  | none => .wpa2
  | some cap =>
    if cap.managementFrameProtectionRequired ∧ cap.managementFrameProtectionCapable ∧
        (∃ akm ∈ rsn.akmSuites, akm ∈ wpa3MustAuth) ∧ (∀ akm ∈ rsn.akmSuites, akm ∉ wpa3BadAuth) ∧
        ∀ cipher ∈ ciphers rsn, cipher ∉ wpa3BadCiphers then .wpa3
    else if ¬ cap.managementFrameProtectionRequired ∧ cap.managementFrameProtectionCapable ∧
        ∃ akm ∈ rsn.akmSuites, akm ∈ wpa3TranMustAuth then .wpa3Tran
    else .wpa2

def wpaPart (elements : Elements) : Except Failure (List WiFiSecurity) :=
  match elements .vendorSpecific with
  | none => .ok []
  | some (.repeated es) => do
    if ← anyWpa es then return [.wpa]
    return []
  | some (.single _) => .error .attributeError

def rsnPart (elements : Elements) : Except Failure (List WiFiSecurity) :=
  match elements .rsn with
  | none => .ok []
  | some (.single e) =>
    match e.info with
    | some (.rsn rsn) => .ok [rsnSecurity rsn]
    | _ => .error .attributeError
  | some (.repeated _) => .error .attributeError

/-- The `capability_info` of a body, which not every body has. -/
def capabilityOf : FrameBody → Except Failure CapabilityInfo
  | .associationRequest c _ _ | .associationResponse c _ _ _ | .reassociationRequest c _ _ _
  | .probeResponse _ _ c _ | .beacon _ _ c _ _ => .ok c
  | _ => .error .attributeError

def openPart (frame : WifiFrame) : Except Failure (List WiFiSecurity) :=
  match frame.frameBody with
  | none => .ok [.open]
  | some (.bytes []) => .ok [.open]
  | some body => do
    if (← capabilityOf body).privacy then return [.wep]
    return [.open]

def security (p : WiFiPacket) : Except Failure (List WiFiSecurity) := do
  let wpa ← wpaPart p.elements
  let rsn ← rsnPart p.elements
  let verdict := wpa ++ rsn
  if verdict.isEmpty then openPart p.parsedData else return verdict

def securityOf (packetData : Bytes) : Except Failure (List WiFiSecurity) := do
  let p ← init packetData
  security p

end InVehicle.WlanSecurity
