import InVehicle.BuildIp
import InVehicle.DoipMessages
import InVehicle.RawSockets
import InVehicle.TextCodecs

/-!
# Finding DoIP entities

`initiate_vehicle_identity_req` and `req_entity_status` send one packet over the raw
socket and look for the response among the packets that are sniffed.
-/

set_option autoImplicit false

namespace InVehicle.DoipDiscovery
open InVehicle.Effect InVehicle.BuildIp InVehicle.DoipMessages InVehicle.RawSockets
open InVehicle.TextCodecs (Text)

def doipPort : ℕ := 13400

/-- What the packet library gives: a UDP packet is built from addresses, ports and a
payload, and the destination port and the payload are asked of a packet that was sniffed. -/
structure PacketLibrary (P : Type) where
  udpPacket : IpVersion → (source target : IpAddress) → (sourcePort destinationPort : ℕ) →
    Bytes → P
  udpDstPort : P → Option ℕ
  payloadLayer : P → Option Bytes

structure DiscoveryMessages (Msg : Type) where
  vehicleIdentificationRequest : Msg
  vehicleIdentificationRequestWithEid : Bytes → Msg
  vehicleIdentificationRequestWithVin : Text → Msg
  doipEntityStatusRequest : Msg
  isVehicleIdentificationResponse : Msg → Bool
  isEntityStatusResponse : Msg → Bool

section Model
variable {Msg P A : Type} (lib : PacketLibrary P) (messages : DiscoveryMessages Msg)
  (c : DoipClient Msg) (socket : Layer3RawSocket) (net : Network P A)

def parsed (payload : Bytes) : Option Msg := (c.readMessage payload).map Prod.fst

/-- `_is_answer` for UDP. A port of 0 is no port. -/
def isAnswer (expectedSourcePort : ℕ) (expected : Msg → Bool) (other : P) : Bool :=
  match lib.udpDstPort other, lib.payloadLayer other with
  | some receivedDstPort, some payload =>
    receivedDstPort ≠ 0 && receivedDstPort = expectedSourcePort && (parsed c payload).any expected
  | _, _ => false

/-- The message of the answer is read once more. -/
def readResponse (expected : Msg → Bool) : Option P → Sending P (Option Msg)
  | none => return none
  | some respPacket =>
    match lib.payloadLayer respPacket with
    | some payload => return (parsed c payload).filter expected
    | none => Prog.raise .typeError

/-- The IP layer follows the version of the source address, whatever the target is. -/
def requestPacket (sourceAddress targetAddress : IpAddress) (sourcePort protocolVersion : ℕ)
    (message : Msg) : P :=
  lib.udpPacket
    (match sourceAddress with
      | .ipv4 _ => .ipv4
      | .ipv6 _ => .ipv6)
    sourceAddress targetAddress sourcePort doipPort (c.packDoip protocolVersion message)

def exchange (sourceAddress targetAddress : IpAddress) (sourcePort protocolVersion : ℕ)
    (message : Msg) (expected : Msg → Bool) : Sending P (Option Msg) := do
  let packet := requestPacket lib c sourceAddress targetAddress sourcePort protocolVersion message
  let respPacket ← sendReceivePacket
    (socket.sendReceivePackets net (isAnswer lib c sourcePort expected)) (.one packet)
  readResponse lib c expected respPacket

/-- An empty entity id or vehicle number counts as none. -/
def identityRequest (eid : Option Bytes) (vin : Option Text) : Msg :=
  if eid.getD [] ≠ [] then messages.vehicleIdentificationRequestWithEid (eid.getD [])
  else if vin.getD [] ≠ [] then messages.vehicleIdentificationRequestWithVin (vin.getD [])
  else messages.vehicleIdentificationRequest

def initiateVehicleIdentityReq (sourceAddress : IpAddress) (sourcePort : ℕ)
    (targetAddress : IpAddress) (protocolVersion : ℕ) (eid : Option Bytes) (vin : Option Text) :
    Sending P (Option Msg) :=
  exchange lib c socket net sourceAddress targetAddress sourcePort protocolVersion
    (identityRequest messages eid vin) messages.isVehicleIdentificationResponse

def reqEntityStatus (sourceAddress : IpAddress) (sourcePort : ℕ) (targetAddress : IpAddress)
    (protocolVersion : ℕ) : Sending P (Option Msg) :=
  exchange lib c socket net sourceAddress targetAddress sourcePort protocolVersion
    messages.doipEntityStatusRequest messages.isEntityStatusResponse

end Model

/-! ## What comes out -/

section Outcome
variable {Msg P A : Type} {lib : PacketLibrary P} {c : DoipClient Msg} {net : Network P A}
  {ipVersion : IpVersion}

/-- The response in a packet, for whom it is addressed to. -/
def response (lib : PacketLibrary P) (c : DoipClient Msg) (sourcePort : ℕ)
    (expected : Msg → Bool) (packet : P) : Option Msg :=
  if lib.udpDstPort packet = some sourcePort ∧ sourcePort ≠ 0 then
    (lib.payloadLayer packet).bind fun payload => (parsed c payload).filter expected
  else none

theorem isAnswer_eq (lib : PacketLibrary P) (c : DoipClient Msg) (sourcePort : ℕ) (expected : Msg → Bool) (packet : P) :
    isAnswer lib c sourcePort expected packet =
      (response lib c sourcePort expected packet).isSome := by
  rw [isAnswer, response]
  cases lib.udpDstPort packet with
  | none => simp
  | some port =>
    cases lib.payloadLayer packet with
    | none => simp
    | some payload =>
      by_cases hport : port = sourcePort
      · subst hport
        by_cases hzero : port = 0
        · simp [hzero]
        · simp [hzero, Option.isSome_filter]
      · simp [hport]

theorem find_response (sourcePort : ℕ) (expected : Msg → Bool) (packets : List P)
    (sent : List P) :
    readResponse lib c expected (packets.find? (isAnswer lib c sourcePort expected)) sent =
      (.ok (packets.findSome? (response lib c sourcePort expected)), sent) := by
  induction packets with
  | nil => rfl
  | cons packet packets ih =>
    have hanswer := isAnswer_eq lib c sourcePort expected packet
    rw [List.findSome?_cons]
    cases hresponse : response lib c sourcePort expected packet with
    | none =>
      rw [List.find?_cons_of_neg (by rw [hanswer, hresponse]; exact Bool.false_ne_true)]
      exact ih
    | some m =>
      rw [List.find?_cons_of_pos (by rw [hanswer, hresponse]; rfl)]
      rw [response] at hresponse
      split_ifs at hresponse with hport
      obtain ⟨payload, hpayload, hm⟩ := Option.bind_eq_some_iff.mp hresponse
      simp only [readResponse, hpayload, hm]
      rfl

def Refuses (net : Network P A) (ipVersion : IpVersion) (packet : P) : Prop :=
  ∃ dstIp e, net.getLayer ipVersion packet = some dstIp ∧
    net.sendto packet (dstAddr ipVersion dstIp) = .error e

def taken (net : Network P A) (ipVersion : IpVersion) (packet : P) : Bool :=
  match net.getLayer ipVersion packet with
  | none => false
  | some dstIp =>
    match net.sendto packet (dstAddr ipVersion dstIp) with
    | .error _ => false
    | .ok count => 0 < count

theorem transmitted_iff_taken (packet : P) :
    (opened ipVersion).Transmitted net packet ↔ taken net ipVersion packet = true := by
  rw [Layer3RawSocket.Transmitted, taken]
  show (∃ dstIp, net.getLayer ipVersion packet = some dstIp ∧ _) ↔ _
  cases net.getLayer ipVersion packet with
  | none => simp
  | some dstIp =>
    cases hsend : net.sendto packet (dstAddr ipVersion dstIp) with
    | error e => simp [opened, hsend]
    | ok count => simp [opened, hsend]

/-- What has been sent behind a packet that is handed to the socket. -/
def sentAfter (net : Network P A) (ipVersion : IpVersion) (packet : P) (sent : List P) : List P :=
  if taken net ipVersion packet = true then sent ++ [packet] else sent

/-- Only a refusal of the system is raised; a packet of the other version, or one of
which no byte is taken, is left out without a word. -/
theorem sendPacket_cases (net : Network P A) (ipVersion : IpVersion) (packet : P) (sent : List P) :
    (Refuses net ipVersion packet ∧
      ∃ e, (opened ipVersion).sendPacket net (some packet) sent = (.error e, sent)) ∨
    ¬ Refuses net ipVersion packet ∧
      ∃ b, (opened ipVersion).sendPacket net (some packet) sent =
        (.ok b, sentAfter net ipVersion packet sent) := by
  by_cases htransmitted : (opened ipVersion).Transmitted net packet
  · refine .inr ⟨?_, true, ?_⟩
    · rintro ⟨dstIp, e, hlayer, hsend⟩
      obtain ⟨dstIp', hlayer', count, hcount, -⟩ := htransmitted
      cases hlayer.symm.trans hlayer'
      cases hsend.symm.trans hcount
    · rw [sentAfter, if_pos (transmitted_iff_taken packet |>.mp htransmitted)]
      exact Layer3RawSocket.sendPacket_transmitted rfl htransmitted sent
  · rw [sentAfter, if_neg (mt (transmitted_iff_taken packet).mpr htransmitted)]
    cases hlayer : net.getLayer ipVersion packet with
    | none =>
      refine .inr ⟨?_, false, ?_⟩
      · rintro ⟨dstIp, e, h, -⟩
        cases hlayer.symm.trans h
      · simp only [Layer3RawSocket.sendPacket, opened, hlayer]
        rfl
    | some dstIp =>
      cases hsend : net.sendto packet (dstAddr ipVersion dstIp) with
      | error e =>
        refine .inl ⟨⟨dstIp, e, hlayer, hsend⟩, e, ?_⟩
        simp only [Layer3RawSocket.sendPacket, opened, hlayer, hsend]
        rfl
      | ok count =>
        have hpos : ¬ 0 < count := fun hpos => htransmitted ⟨dstIp, hlayer, count, hsend, hpos⟩
        refine .inr ⟨?_, false, ?_⟩
        · rintro ⟨dstIp', e, h, he⟩
          cases hlayer.symm.trans h
          cases hsend.symm.trans he
        · simp only [Layer3RawSocket.sendPacket, opened, hlayer, hsend, hpos, if_false]
          rfl

theorem exchange_opened_iff (sourceAddress targetAddress : IpAddress)
    (sourcePort protocolVersion : ℕ) (message : Msg) (expected : Msg → Bool) (sent t : List P)
    (x : Option Msg) :
    exchange lib c (opened ipVersion) net sourceAddress targetAddress sourcePort protocolVersion
        message expected sent = (.ok x, t) ↔
      ¬ Refuses net ipVersion (requestPacket lib c sourceAddress targetAddress sourcePort
          protocolVersion message) ∧
        x = net.sniffed.findSome? (response lib c sourcePort expected) ∧
        t = sentAfter net ipVersion (requestPacket lib c sourceAddress targetAddress sourcePort
          protocolVersion message) sent := by
  generalize hpacket : requestPacket lib c sourceAddress targetAddress sourcePort protocolVersion
    message = packet
  rw [exchange, hpacket]
  rcases sendPacket_cases net ipVersion packet sent with
    ⟨hrefuses, e, hsend⟩ | ⟨hrefuses, b, hsend⟩
  · have hraise : (opened ipVersion).sendReceivePackets net
        (isAnswer lib c sourcePort expected) (.one packet) sent = (.error e, sent) := by
      rw [Layer3RawSocket.sendReceivePackets]
      exact bind_error hsend
    have hone : sendReceivePacket ((opened ipVersion).sendReceivePackets net
        (isAnswer lib c sourcePort expected)) (.one packet) sent = (.error e, sent) :=
      bind_error hraise
    rw [bind_error hone]
    refine ⟨fun h => ?_, fun h => absurd hrefuses h.1⟩
    cases h
  · have hfound : (opened ipVersion).sendReceivePackets net
        (isAnswer lib c sourcePort expected) (.one packet) sent =
        (.ok (net.sniffed.filter (isAnswer lib c sourcePort expected)),
          sentAfter net ipVersion packet sent) := by
      rw [Layer3RawSocket.sendReceivePackets]
      refine (bind_ok hsend).trans ?_
      rw [Layer3RawSocket.findPacket_eq, List.nil_append]
      rfl
    have hone : sendReceivePacket ((opened ipVersion).sendReceivePackets net
        (isAnswer lib c sourcePort expected)) (.one packet) sent =
        (.ok (net.sniffed.find? (isAnswer lib c sourcePort expected)),
          sentAfter net ipVersion packet sent) :=
      (bind_ok hfound).trans (by rw [List.head?_filter]; rfl)
    rw [bind_ok hone, find_response, Prod.mk.injEq, Except.ok.injEq, and_iff_right hrefuses]
    exact and_congr eq_comm eq_comm

/-- What a question comes back with is the first response among the packets that are
sniffed, whether the question left or not; only a closed socket and a refusal of the
system are raised. -/
theorem exchange_returns_iff (socket : Layer3RawSocket) (sourceAddress targetAddress : IpAddress)
    (sourcePort protocolVersion : ℕ) (message : Msg) (expected : Msg → Bool) (sent t : List P)
    (x : Option Msg) :
    exchange lib c socket net sourceAddress targetAddress sourcePort protocolVersion
        message expected sent = (.ok x, t) ↔
      socket.isOpen = true ∧
        ¬ Refuses net socket.ipVersion (requestPacket lib c sourceAddress targetAddress sourcePort
          protocolVersion message) ∧
        x = net.sniffed.findSome? (response lib c sourcePort expected) ∧
        t = sentAfter net socket.ipVersion (requestPacket lib c sourceAddress targetAddress
          sourcePort protocolVersion message) sent := by
  obtain ⟨ipVersion, isOpen⟩ := socket
  cases isOpen with
  | false =>
    refine ⟨fun h => ?_, fun h => absurd h.1 Bool.false_ne_true⟩
    have hraise : exchange lib c ⟨ipVersion, false⟩ net sourceAddress targetAddress sourcePort
        protocolVersion message expected sent = (.error .attributeError, sent) := rfl
    cases hraise.symm.trans h
  | true =>
    rw [and_iff_right rfl]
    exact exchange_opened_iff sourceAddress targetAddress sourcePort protocolVersion message
      expected sent t x

end Outcome

end InVehicle.DoipDiscovery
