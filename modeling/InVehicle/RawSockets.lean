import InVehicle.Basic
import InVehicle.Effect
import Mathlib.Data.List.Basic

/-!
# Raw sockets

What `RawSocketCommunicatorBase` builds from `send_packet` and `send_receive_packets`
for all implementations, and the socket on layer 3. The packets that have been sent
are the state.
-/

set_option autoImplicit false

namespace InVehicle.RawSockets
open InVehicle.Effect

/-- The argument for the packets to send: one, a sequence, or `None` to skip sending. -/
inductive PacketArg (P : Type) where
  | one (packet : P)
  | sequence (packets : List P)
  | none
  deriving DecidableEq, Repr

def PacketArg.packets {P : Type} : PacketArg P → List P
  | .one packet => [packet]
  | .sequence packets => packets
  | .none => []

abbrev Sending (P α : Type) := Prog (List P) PyError α

/-! ## The defaults of the base class -/

section Base
variable {P : Type} (isOpen : Bool) (sendPacket : Option P → Sending P Bool)
  (sendReceivePackets : PacketArg P → Sending P (List P))

def sendPackets : List P → Sending P Bool
  | [] => pure true
  | packet :: packets => do
    let sent ← sendPacket (some packet)
    if sent = true then sendPackets packets else pure false

/-- Whatever is no sequence is passed on as one packet, also `None`. -/
def send (packet : PacketArg P) : Sending P Bool :=
  if isOpen then
    match packet with
    | .sequence packets => sendPackets sendPacket packets
    | .one packet => sendPacket (some packet)
    | .none => sendPacket Option.none
  else pure false

def sendReceivePacket (packet : PacketArg P) : Sending P (Option P) := do
  let foundPackets ← sendReceivePackets packet
  return foundPackets.head?

def receiveAnswer : Sending P (Option P) := sendReceivePacket sendReceivePackets .none

def receiveAnswers : Sending P (List P) := sendReceivePackets .none

end Base

/-! ## Layer 3 -/

inductive IpVersion where
  | ipv4
  | ipv6
  deriving DecidableEq, Repr

/-- The host and the numbers behind it in the address of `sendto`. -/
abbrev DstAddr (A : Type) := A × List ℕ

def dstAddr {A : Type} (ipVersion : IpVersion) (dstIp : A) : DstAddr A :=
  match ipVersion with
  | .ipv4 => (dstIp, [0])
  | .ipv6 => (dstIp, [0, 0, 0])

/-- The destination in the layer of the given version, the bytes that the system takes
of a packet, and what is sniffed during the timeout. -/
structure Network (P A : Type) where
  getLayer : IpVersion → P → Option A
  sendto : P → DstAddr A → Except PyError ℕ
  sniffed : List P

structure Layer3RawSocket where
  ipVersion : IpVersion
  isOpen : Bool
  deriving DecidableEq, Repr

namespace Layer3RawSocket
variable {P A : Type} (socket : Layer3RawSocket) (net : Network P A) (isAnswer : P → Bool)

/-- A packet of which the system takes no byte is not sent. -/
def sendPacket : Option P → Sending P Bool
  | none => if socket.isOpen then Prog.raise .attributeError else pure false
  | some packet =>
    if socket.isOpen then
      match net.getLayer socket.ipVersion packet with
      | none => pure false
      | some dstIp =>
        match net.sendto packet (dstAddr socket.ipVersion dstIp) with
        | .error e => Prog.raise e
        | .ok count =>
          if 0 < count then do
            Prog.modify (· ++ [packet])
            return true
          else pure false
    else pure false

/-- The loop of `find_packet` over the sniffed packets. -/
def findPacket : List P → List P → List P
  | [], foundPackets => foundPackets
  | packet :: packets, foundPackets =>
    findPacket packets (if isAnswer packet then foundPackets ++ [packet] else foundPackets)

/-- The packets are sent before the task that sniffs begins to run. -/
def sendReceivePackets (packet : PacketArg P) : Sending P (List P) := do
  let _ ← send socket.isOpen (socket.sendPacket net) packet
  if socket.isOpen then return findPacket isAnswer net.sniffed []
  else Prog.raise .attributeError

theorem findPacket_eq (packets foundPackets : List P) :
    findPacket isAnswer packets foundPackets = foundPackets ++ packets.filter isAnswer := by
  induction packets generalizing foundPackets with
  | nil => rw [findPacket, List.filter_nil, List.append_nil]
  | cons packet packets ih =>
    rw [findPacket, ih]
    cases h : isAnswer packet <;> simp [h]

/-! ## What is sent -/

/-- The packet has a layer of the socket's version, and the system takes it. -/
def Transmitted (packet : P) : Prop :=
  ∃ dstIp, net.getLayer socket.ipVersion packet = some dstIp ∧
    ∃ count, net.sendto packet (dstAddr socket.ipVersion dstIp) = .ok count ∧ 0 < count

section Send
variable {socket net} (hopen : socket.isOpen = true)
include hopen

theorem sendPacket_transmitted {packet : P} (h : socket.Transmitted net packet) (sent : List P) :
    socket.sendPacket net (some packet) sent = (.ok true, sent ++ [packet]) := by
  obtain ⟨dstIp, hlayer, count, hcount, hpos⟩ := h
  simp only [sendPacket, hopen, if_true, hlayer, hcount, hpos]
  rfl

theorem sendPacket_refused {packet : P} (h : ¬ socket.Transmitted net packet) (sent : List P) :
    ∃ r, socket.sendPacket net (some packet) sent = (r, sent) ∧ r ≠ .ok true := by
  simp only [sendPacket, hopen, if_true]
  cases hlayer : net.getLayer socket.ipVersion packet with
  | none => exact ⟨.ok false, rfl, by simp⟩
  | some dstIp =>
    cases hcount : net.sendto packet (dstAddr socket.ipVersion dstIp) with
    | error e => exact ⟨.error e, by simp only [hcount]; rfl, by simp⟩
    | ok count =>
      have hpos : ¬ 0 < count := fun hpos => h ⟨dstIp, hlayer, count, hcount, hpos⟩
      exact ⟨.ok false, by simp only [hcount, hpos]; rfl, by simp⟩

theorem sendPackets_transmitted {packets : List P}
    (h : ∀ packet ∈ packets, socket.Transmitted net packet) (sent : List P) :
    sendPackets (socket.sendPacket net) packets sent = (.ok true, sent ++ packets) := by
  induction packets generalizing sent with
  | nil => rw [List.append_nil]; rfl
  | cons packet packets ih =>
    rw [List.forall_mem_cons] at h
    rw [sendPackets, bind_ok (sendPacket_transmitted hopen h.1 sent), if_pos rfl, ih h.2,
      List.append_assoc, List.singleton_append]

theorem sendPackets_refused {packets : List P} (sent : List P)
    (h : ¬ ∀ packet ∈ packets, socket.Transmitted net packet) :
    (sendPackets (socket.sendPacket net) packets sent).2 ≠ sent ++ packets := by
  induction packets generalizing sent with
  | nil => simp at h
  | cons packet packets ih =>
    rw [List.forall_mem_cons] at h
    by_cases hp : socket.Transmitted net packet
    · have hfirst := List.append_cons sent packet packets
      rw [sendPackets, bind_ok (sendPacket_transmitted hopen hp sent), if_pos rfl, hfirst]
      exact ih _ fun hall => h ⟨hp, hall⟩
    · obtain ⟨r, hr, hne⟩ := sendPacket_refused hopen hp sent
      have hstate : (sendPackets (socket.sendPacket net) (packet :: packets) sent).2 = sent := by
        match r, hr, hne with
        | .error e, hr, _ => rw [sendPackets, bind_error hr]
        | .ok false, hr, _ => rw [sendPackets, bind_ok hr]; rfl
        | .ok true, _, hne => exact absurd rfl hne
      rw [hstate]
      simp

theorem send_iff (packet : PacketArg P) (sent : List P) :
    (∃ b, send socket.isOpen (socket.sendPacket net) packet sent =
        (.ok b, sent ++ packet.packets)) ↔
      packet ≠ .none ∧ ∀ p ∈ packet.packets, socket.Transmitted net p := by
  simp only [send, hopen, if_true]
  cases packet with
  | none =>
    have hraise : socket.sendPacket net none sent = (.error .attributeError, sent) := by
      simp only [sendPacket, hopen, if_true]
      rfl
    simp [hraise]
  | one packet =>
    simp only [PacketArg.packets, List.forall_mem_singleton, ne_eq, reduceCtorEq,
      not_false_eq_true, true_and]
    constructor
    · rintro ⟨b, hb⟩
      by_contra h
      obtain ⟨r, hr, -⟩ := sendPacket_refused hopen h sent
      have hstate := congrArg Prod.snd (hr.symm.trans hb)
      simp at hstate
    · intro h
      exact ⟨true, sendPacket_transmitted hopen h sent⟩
  | sequence packets =>
    simp only [PacketArg.packets, ne_eq, reduceCtorEq, not_false_eq_true, true_and]
    constructor
    · rintro ⟨b, hb⟩
      by_contra h
      exact sendPackets_refused hopen sent h (congrArg Prod.snd hb)
    · intro h
      exact ⟨true, sendPackets_transmitted hopen h sent⟩

theorem sendReceivePackets_iff (packet : PacketArg P) (sent : List P) :
    socket.sendReceivePackets net isAnswer packet sent =
        (.ok (net.sniffed.filter isAnswer), sent ++ packet.packets) ↔
      packet ≠ .none ∧ ∀ p ∈ packet.packets, socket.Transmitted net p := by
  rw [← send_iff hopen packet sent, sendReceivePackets, bind_eq_ok]
  simp only [hopen, if_true, findPacket_eq, List.nil_append]
  constructor
  · rintro ⟨b, t, hb, ht⟩
    cases ht
    exact ⟨b, hb⟩
  · rintro ⟨b, hb⟩
    exact ⟨b, _, hb, rfl⟩

theorem sendReceivePacket_iff (packet : PacketArg P) (sent : List P) :
    sendReceivePacket (socket.sendReceivePackets net isAnswer) packet sent =
        (.ok (net.sniffed.find? isAnswer), sent ++ packet.packets) ↔
      packet ≠ .none ∧ ∀ p ∈ packet.packets, socket.Transmitted net p := by
  rw [← sendReceivePackets_iff isAnswer hopen packet sent, sendReceivePacket, bind_eq_ok]
  constructor
  · rintro ⟨found, t, hfound, ht⟩
    obtain rfl : t = sent ++ packet.packets := congrArg Prod.snd ht
    have hsend := hfound
    rw [sendReceivePackets, bind_eq_ok] at hsend
    obtain ⟨b, u, -, hu⟩ := hsend
    simp only [hopen, if_true, findPacket_eq, List.nil_append] at hu
    cases hu
    exact hfound
  · intro h
    exact ⟨_, _, h, by rw [List.head?_filter]; rfl⟩

end Send

end Layer3RawSocket

/-! ## The contract of the four operations -/

inductive Call (P : Type) where
  | sendReceivePackets (packet : PacketArg P)
  | sendReceivePacket (packet : PacketArg P)
  | receiveAnswer
  | receiveAnswers
  deriving DecidableEq, Repr

/-- The packets that the call gives to `send`. -/
def Call.packet {P : Type} : Call P → PacketArg P
  | .sendReceivePackets packet => packet
  | .sendReceivePacket packet => packet
  | .receiveAnswer => .none
  | .receiveAnswers => .none

def opened (ipVersion : IpVersion) : Layer3RawSocket := ⟨ipVersion, true⟩

section Contract
variable {P A : Type} (ipVersion : IpVersion) (net : Network P A) (isAnswer : P → Bool)

/-- The call raises nothing, sends its packets in order, and returns the answers among
the sniffed packets, or the first of them. -/
def KeepsContract (sent : List P) : Call P → Prop
  | .sendReceivePackets packet =>
    (opened ipVersion).sendReceivePackets net isAnswer packet sent =
      (.ok (net.sniffed.filter isAnswer), sent ++ packet.packets)
  | .sendReceivePacket packet =>
    sendReceivePacket ((opened ipVersion).sendReceivePackets net isAnswer) packet sent =
      (.ok (net.sniffed.find? isAnswer), sent ++ packet.packets)
  | .receiveAnswer =>
    receiveAnswer ((opened ipVersion).sendReceivePackets net isAnswer) sent =
      (.ok (net.sniffed.find? isAnswer), sent)
  | .receiveAnswers =>
    receiveAnswers ((opened ipVersion).sendReceivePackets net isAnswer) sent =
      (.ok (net.sniffed.filter isAnswer), sent)

theorem receiveAnswer_raises (sent : List P) :
    ¬ KeepsContract ipVersion net isAnswer sent .receiveAnswer ∧
      ¬ KeepsContract ipVersion net isAnswer sent .receiveAnswers := by
  have hpacket := @Layer3RawSocket.sendReceivePacket_iff P A (opened ipVersion) net isAnswer rfl
    .none sent
  have hpackets := @Layer3RawSocket.sendReceivePackets_iff P A (opened ipVersion) net isAnswer rfl
    .none sent
  rw [PacketArg.packets, List.append_nil] at hpacket hpackets
  exact ⟨fun h => (hpacket.mp h).1 rfl, fun h => (hpackets.mp h).1 rfl⟩

/-- A call keeps the contract exactly if it has packets to send, and all of them are
transmitted. -/
theorem contract_iff (call : Call P) (sent : List P) :
    KeepsContract ipVersion net isAnswer sent call ↔
      call.packet ≠ .none ∧
        ∀ p ∈ call.packet.packets, (opened ipVersion).Transmitted net p := by
  cases call with
  | sendReceivePackets packet =>
    exact Layer3RawSocket.sendReceivePackets_iff isAnswer rfl packet sent
  | sendReceivePacket packet =>
    exact Layer3RawSocket.sendReceivePacket_iff isAnswer rfl packet sent
  | receiveAnswer =>
    exact iff_of_false (receiveAnswer_raises ipVersion net isAnswer sent).1 fun h => h.1 rfl
  | receiveAnswers =>
    exact iff_of_false (receiveAnswer_raises ipVersion net isAnswer sent).2 fun h => h.1 rfl

end Contract

/-- Packets are numbers here, all with a layer of both versions, and all are taken. -/
def quietNetwork : Network ℕ ℕ where
  getLayer _ packet := some packet
  sendto _ _ := .ok 20
  sniffed := [1, 2, 3]

example :
    (opened .ipv4).sendReceivePackets quietNetwork (fun p => p % 2 = 1) (.sequence [7, 8]) [] =
      (.ok [1, 3], [7, 8]) := rfl

/-- Nothing to send is passed on as a packet. -/
theorem none_is_sent :
    (opened .ipv4).sendReceivePackets quietNetwork (fun p => p % 2 = 1) .none [] =
      (.error .attributeError, []) ∧
    ¬ KeepsContract .ipv4 quietNetwork (fun p => p % 2 = 1) [] (.sendReceivePackets .none) ∧
    ¬ KeepsContract .ipv4 quietNetwork (fun p => p % 2 = 1) [] .receiveAnswer ∧
    ¬ KeepsContract .ipv4 quietNetwork (fun p => p % 2 = 1) [] .receiveAnswers := by
  have hraise : (opened .ipv4).sendReceivePackets quietNetwork (fun p => p % 2 = 1) .none [] =
      (.error .attributeError, []) := rfl
  refine ⟨hraise, fun h => ?_, receiveAnswer_raises ..⟩
  cases hraise.symm.trans h

end InVehicle.RawSockets
