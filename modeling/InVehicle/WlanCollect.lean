import InVehicle.Layer2Socket
import InVehicle.WlanReceive

/-!
# Collecting answers on a wireless interface

`WiFiRawSocket._send_receive_packets` and the four operations that rest on it. The
loop receives datagram by datagram against a deadline, as the socket on layer 2 does,
and looks at those of its own interface.
-/

set_option autoImplicit false

namespace InVehicle.WlanCollect
open InVehicle.Effect InVehicle.Formats InVehicle.Loops InVehicle.RawSockets
open InVehicle.WlanReceive
open InVehicle.Layer2Socket (Reception LoopState InTime receivedPackets)

variable {T : Type}

inductive CollectError where
  | failure (f : Failure)
  | python (e : PyError)
  | closedInterface
  deriving DecidableEq, Repr

/-- The bytes that a receive brings, the interface they came in on, and the clock when
the pass is over. -/
structure Datagram (T : Type) where
  data : Bytes
  receivedFrom : String
  clock : T
  deriving DecidableEq, Repr

abbrev Traffic (T : Type) := Option T → Datagram T

/-- `socket.recvfrom` takes its arguments by position and knows no `timeout`. -/
def recvfrom (receive : Traffic T) : Option T → Except CollectError (Datagram T)
  | some _ => .error (.python .typeError)
  | none => .ok (receive none)

/-- A predicate on packets, and what it returns when it is called with none of its
arguments, if it can be. -/
structure Predicate where
  onPacket : WiFiPacket → Bool
  withoutPacket : Option Bool

structure WiFiRawSocket where
  ifName : String
  isOpen : Bool
  deriving DecidableEq, Repr

namespace WiFiRawSocket

section Model
variable (socket : WiFiRawSocket) (radiotapParse : Bytes → ℕ × Radiotap) (isAnswer : Predicate)

/-- The class has no attribute `data`, only its packets have one. -/
def sendPacket (_ : Option WiFiPacket) : Sending WiFiPacket Bool :=
  if socket.isOpen then Prog.raise .attributeError else pure false

/-- `if packet: self.send(packet)`. -/
def sendGiven (packet : PacketArg WiFiPacket) : Sending WiFiPacket Unit :=
  if packet.packets.isEmpty then pure ()
  else do
    let _ ← send socket.isOpen socket.sendPacket packet
    pure ()

variable [Sub T] [LT T] [DecidableLT T] (timeout startTime : T)

/-- The body of `find_packet`. No limit is a limit of 0. -/
def findPacket (maxAnswers : ℕ) (receive : Traffic T) (s : LoopState WiFiPacket T) :
    Pass (LoopState WiFiPacket T) (Except CollectError (List WiFiPacket)) :=
  if s.timeSpent < timeout then
    match recvfrom receive (some (timeout - s.timeSpent)) with
    | .error e => .done (.error e)
    | .ok ⟨receivedData, receivedFrom, clock⟩ =>
      if receivedData.isEmpty then .done (.ok s.foundPackets)
      else if receivedFrom = socket.ifName then
        match WiFiPacket.init radiotapParse receivedData with
        | .error e => .done (.error (.failure e))
        | .ok recivedPacket =>
          -- the predicate is called without the packet
          match isAnswer.withoutPacket with
          | none => .done (.error (.python .typeError))
          | some true =>
            let foundPackets := s.foundPackets ++ [recivedPacket]
            if maxAnswers ≠ 0 ∧ maxAnswers ≤ foundPackets.length then .done (.ok foundPackets)
            else .next ⟨foundPackets, clock - startTime⟩
          | some false => .next ⟨s.foundPackets, clock - startTime⟩
      else .next ⟨s.foundPackets, clock - startTime⟩
  else .done (.ok s.foundPackets)

variable [Zero T] (traffic : ℕ → Traffic T)

/-- `_send_receive_packets`: the packets are sent before the task begins to run. -/
def SendReceive (packet : PacketArg WiFiPacket) (maxAnswers : ℕ)
    (outcome : Except CollectError (List WiFiPacket)) : Prop :=
  if socket.isOpen then
    match (socket.sendGiven packet []).1 with
    | .error e => outcome = .error (.python e)
    | .ok () => Returns (socket.findPacket radiotapParse isAnswer timeout startTime maxAnswers)
        traffic ⟨[], 0⟩ outcome
  else outcome = .error .closedInterface

def SendReceivePackets (packet : PacketArg WiFiPacket) :
    Except CollectError (List WiFiPacket) → Prop :=
  socket.SendReceive radiotapParse isAnswer timeout startTime traffic packet 0

def SendReceivePacket (packet : PacketArg WiFiPacket)
    (outcome : Except CollectError (Option WiFiPacket)) : Prop :=
  ∃ o, socket.SendReceive radiotapParse isAnswer timeout startTime traffic packet 1 o ∧
    outcome = o.map List.head?

def ReceiveAnswer : Except CollectError (Option WiFiPacket) → Prop :=
  socket.SendReceivePacket radiotapParse isAnswer timeout startTime traffic .none

def ReceiveAnswers : Except CollectError (List WiFiPacket) → Prop :=
  socket.SendReceivePackets radiotapParse isAnswer timeout startTime traffic .none

end Model

/-! ## How every call ends -/

def opened (ifName : String) : WiFiRawSocket := ⟨ifName, true⟩

section Calls
variable (ifName : String) (radiotapParse : Bytes → ℕ × Radiotap) (isAnswer : Predicate)
  (packet : PacketArg WiFiPacket)

theorem sendGiven_nothing (h : packet.packets = []) :
    ((opened ifName).sendGiven packet []).1 = .ok () := by
  rw [sendGiven, h]
  rfl

theorem sendGiven_packets (h : packet.packets ≠ []) :
    ((opened ifName).sendGiven packet []).1 = .error .attributeError := by
  rw [sendGiven, if_neg (by simpa using h)]
  cases packet with
  | none => exact absurd rfl h
  | one packet => rfl
  | sequence packets =>
    cases packets with
    | nil => exact absurd rfl h
    | cons packet packets => rfl

variable [Sub T] [LT T] [DecidableLT T] [Zero T] (timeout startTime : T)
  (traffic : ℕ → Traffic T) (maxAnswers : ℕ)

/-- The first pass ends the loop: with nothing found when there is no time, and with
the exception of the receive otherwise. -/
theorem findPacket_first (receive : Traffic T) :
    (opened ifName).findPacket radiotapParse isAnswer timeout startTime maxAnswers receive
        ⟨[], 0⟩ =
      .done (if 0 < timeout then .error (.python .typeError) else .ok []) := by
  by_cases htime : 0 < timeout
  · rw [findPacket, if_pos htime, if_pos htime]
    rfl
  · rw [findPacket, if_neg htime, if_neg htime]

theorem sendReceive_iff (outcome : Except CollectError (List WiFiPacket)) :
    (opened ifName).SendReceive radiotapParse isAnswer timeout startTime traffic packet
        maxAnswers outcome ↔
      outcome =
        if packet.packets ≠ [] then .error (.python .attributeError)
        else if 0 < timeout then .error (.python .typeError)
        else .ok [] := by
  have hopen : (opened ifName).isOpen = true := rfl
  rw [SendReceive, if_pos hopen]
  by_cases hpackets : packet.packets = []
  · rw [sendGiven_nothing ifName packet hpackets, if_neg (not_not.mpr hpackets)]
    exact returns_of_first (findPacket_first ..)
  · rw [sendGiven_packets ifName packet hpackets, if_pos hpackets]

theorem sendReceivePacket_iff (outcome : Except CollectError (Option WiFiPacket)) :
    (opened ifName).SendReceivePacket radiotapParse isAnswer timeout startTime traffic packet
        outcome ↔
      outcome =
        if packet.packets ≠ [] then .error (.python .attributeError)
        else if 0 < timeout then .error (.python .typeError)
        else .ok none := by
  simp only [SendReceivePacket, sendReceive_iff, exists_eq_left]
  split_ifs <;> rfl

end Calls

end WiFiRawSocket

/-! ## What the callers are promised -/

section Contract
variable (ifName : String) (radiotapParse : Bytes → ℕ × Radiotap) (isAnswer : Predicate)
  [Sub T] [LT T] [DecidableLT T] [Zero T] (timeout startTime : T) (traffic : ℕ → Traffic T)

/-- The receives, each with no more than the time that is left. A receive of no bytes
is empty. -/
def receptions (n : ℕ) (remaining : T) : Reception (Bytes × String) T :=
  let datagram := traffic n (some remaining)
  { packet := if datagram.data.isEmpty then none else some (datagram.data, datagram.receivedFrom)
    clock := datagram.clock }

def ownPacket (datagram : Bytes × String) : Option WiFiPacket :=
  if datagram.2 = ifName then (WiFiPacket.init radiotapParse datagram.1).toOption else none

def answers (n : ℕ) : List WiFiPacket :=
  ((receivedPackets timeout startTime (receptions traffic) n).filterMap
    (ownPacket ifName radiotapParse)).filter isAnswer.onPacket

def firstOf (k : ℕ) (packets : List WiFiPacket) : List WiFiPacket :=
  if k = 0 then packets else packets.take k

/-- The collecting goes on until a receive is late or empty, or the limit is reached. -/
def Collected (k : ℕ) (foundPackets : List WiFiPacket) : Prop :=
  ∃ n, (∀ i < n, InTime timeout startTime (receptions traffic) i) ∧
    (¬InTime timeout startTime (receptions traffic) n ∨
      0 < k ∧ k ≤ (answers ifName radiotapParse isAnswer timeout startTime traffic n).length) ∧
    foundPackets =
      firstOf k (answers ifName radiotapParse isAnswer timeout startTime traffic n)

/-- The loop collects what was received, and the four operations return all of it or
the first. -/
structure CollectsAnswers (packet : PacketArg WiFiPacket) : Prop where
  collects : ∀ k, ∃ foundPackets,
    (WiFiRawSocket.opened ifName).SendReceive radiotapParse isAnswer timeout startTime traffic
      packet k (.ok foundPackets) ∧
    Collected ifName radiotapParse isAnswer timeout startTime traffic k foundPackets
  agree : ∃ foundPackets : List WiFiPacket,
    (WiFiRawSocket.opened ifName).SendReceivePackets radiotapParse isAnswer timeout startTime
      traffic packet (.ok foundPackets) ∧
    (WiFiRawSocket.opened ifName).SendReceivePacket radiotapParse isAnswer timeout startTime
      traffic packet (.ok foundPackets.head?) ∧
    (WiFiRawSocket.opened ifName).ReceiveAnswers radiotapParse isAnswer timeout startTime
      traffic (.ok foundPackets) ∧
    (WiFiRawSocket.opened ifName).ReceiveAnswer radiotapParse isAnswer timeout startTime
      traffic (.ok foundPackets.head?)

omit [DecidableLT T] in
theorem collected_nil (k : ℕ) (h : ¬0 < timeout) :
    Collected ifName radiotapParse isAnswer timeout startTime traffic k [] := by
  have hnothing : answers ifName radiotapParse isAnswer timeout startTime traffic 0 = [] := rfl
  refine ⟨0, fun i hi => absurd hi (Nat.not_lt_zero i), .inl fun hin => h hin.1, ?_⟩
  rw [hnothing, firstOf, List.take_nil, ite_self]

theorem collectsAnswers_iff (packet : PacketArg WiFiPacket) :
    CollectsAnswers ifName radiotapParse isAnswer timeout startTime traffic packet ↔
      packet.packets = [] ∧ ¬0 < timeout := by
  constructor
  · rintro ⟨hcollects, -⟩
    obtain ⟨foundPackets, hfound, -⟩ := hcollects 0
    rw [WiFiRawSocket.sendReceive_iff] at hfound
    by_cases hpackets : packet.packets ≠ []
    · rw [if_pos hpackets] at hfound
      cases hfound
    · rw [if_neg hpackets] at hfound
      refine ⟨not_not.mp hpackets, fun htime => ?_⟩
      rw [if_pos htime] at hfound
      cases hfound
  · rintro ⟨hpackets, htime⟩
    have hnone : (PacketArg.none : PacketArg WiFiPacket).packets = [] := rfl
    constructor
    · intro k
      refine ⟨[], ?_, collected_nil ifName radiotapParse isAnswer timeout startTime traffic k htime⟩
      rw [WiFiRawSocket.sendReceive_iff, if_neg (not_not.mpr hpackets), if_neg htime]
    · refine ⟨[], ?_, ?_, ?_, ?_⟩
      · rw [WiFiRawSocket.SendReceivePackets, WiFiRawSocket.sendReceive_iff,
          if_neg (not_not.mpr hpackets), if_neg htime]
      · rw [WiFiRawSocket.sendReceivePacket_iff, if_neg (not_not.mpr hpackets), if_neg htime]
        rfl
      · rw [WiFiRawSocket.ReceiveAnswers, WiFiRawSocket.SendReceivePackets,
          WiFiRawSocket.sendReceive_iff, if_neg (not_not.mpr hnone), if_neg htime]
      · rw [WiFiRawSocket.ReceiveAnswer, WiFiRawSocket.sendReceivePacket_iff,
          if_neg (not_not.mpr hnone), if_neg htime]
        rfl

end Contract

/-- An acknowledgement on the own interface after one second of two. -/
def oneFrame (n : ℕ) (_ : Option ℕ) : Datagram ℕ :=
  if n = 0 then ⟨header2412 ++ acknowledgement, "wlan0", 1⟩ else ⟨[], "wlan0", 2⟩

def anyPacket : Predicate where
  onPacket _ := true
  withoutPacket := none

theorem receiveAnswers_raises :
    (WiFiRawSocket.opened "wlan0").ReceiveAnswers channelOnly anyPacket 2 0 (fun n => oneFrame n)
        (.error (.python .typeError)) ∧
      ¬CollectsAnswers "wlan0" channelOnly anyPacket 2 0 (fun n => oneFrame n) .none := by
  have hraises : ∀ outcome, (WiFiRawSocket.opened "wlan0").SendReceive channelOnly anyPacket 2 0
      (fun n => oneFrame n) .none 0 outcome ↔ outcome = .error (.python .typeError) := by
    intro outcome
    rw [WiFiRawSocket.sendReceive_iff]
    rfl
  refine ⟨(hraises _).mpr rfl, fun h => ?_⟩
  obtain ⟨foundPackets, hfound, -⟩ := h.collects 0
  have hok := (hraises _).mp hfound
  cases hok

end InVehicle.WlanCollect
