import InVehicle.Loops
import InVehicle.RawSockets

/-!
# Collecting answers on layer 2

`Layer2RawSocket` receives packet by packet against a deadline. A receive is told how
much time is left, and with the packet, if there is one, comes the reading of the clock
behind it.
-/

set_option autoImplicit false

namespace InVehicle.Layer2Socket
open InVehicle.Loops InVehicle.RawSockets

variable {P T : Type}

/-- What `receive_packet` returns, and the clock when the pass is over. -/
structure Reception (P T : Type) where
  packet : Option P
  clock : T
  deriving DecidableEq, Repr

structure LoopState (P T : Type) where
  foundPackets : List P
  timeSpent : T
  deriving DecidableEq, Repr

section Model
variable [Sub T] [LT T] [DecidableLT T] (isAnswer : P → Bool) (timeout startTime : T)

/-- The body of `find_packet`. No limit is a limit of 0. -/
def findPacket (maxAnswers : ℕ) (receivePacket : T → Reception P T) (s : LoopState P T) :
    Pass (LoopState P T) (List P) :=
  if s.timeSpent < timeout then
    let reception := receivePacket (timeout - s.timeSpent)
    match reception.packet with
    | none => .done s.foundPackets
    | some packet =>
      if isAnswer packet then
        let foundPackets := s.foundPackets ++ [packet]
        if maxAnswers ≠ 0 ∧ maxAnswers ≤ foundPackets.length then .done foundPackets
        else .next ⟨foundPackets, reception.clock - startTime⟩
      else .next ⟨s.foundPackets, reception.clock - startTime⟩
  else .done s.foundPackets

variable [Zero T] (receivePacket : ℕ → T → Reception P T)

def collecting (maxAnswers : ℕ) : ℕ → Pass (LoopState P T) (List P) :=
  after (findPacket isAnswer timeout startTime maxAnswers) receivePacket ⟨[], 0⟩

def Collects (maxAnswers : ℕ) (foundPackets : List P) : Prop :=
  Returns (findPacket isAnswer timeout startTime maxAnswers) receivePacket ⟨[], 0⟩ foundPackets

inductive SocketError where
  | closedSocket
  deriving DecidableEq, Repr

/-- What a call hands to the raw socket, and how it ends. -/
structure Outcome (P ρ : Type) where
  sent : List P
  result : Except SocketError ρ

/-- `_send_receive_packets`: whether the packets could be sent is not looked at. -/
def SendReceive (isOpen : Bool) (packet : PacketArg P) (maxAnswers : ℕ)
    (outcome : Outcome P (List P)) : Prop :=
  if isOpen then
    ∃ foundPackets, Collects isAnswer timeout startTime receivePacket maxAnswers foundPackets ∧
      outcome = ⟨packet.packets, .ok foundPackets⟩
  else outcome = ⟨[], .error .closedSocket⟩

def SendReceivePackets (isOpen : Bool) (packet : PacketArg P) : Outcome P (List P) → Prop :=
  SendReceive isAnswer timeout startTime receivePacket isOpen packet 0

def SendReceivePacket (isOpen : Bool) (packet : PacketArg P) (outcome : Outcome P (Option P)) :
    Prop :=
  ∃ o, SendReceive isAnswer timeout startTime receivePacket isOpen packet 1 o ∧
    outcome = ⟨o.sent, o.result.map List.head?⟩

/-- The default of the base class for `send_receive_packet`. -/
def SendReceivePacketDefault (isOpen : Bool) (packet : PacketArg P)
    (outcome : Outcome P (Option P)) : Prop :=
  ∃ o, SendReceivePackets isAnswer timeout startTime receivePacket isOpen packet o ∧
    outcome = ⟨o.sent, o.result.map List.head?⟩

/-! ## What is received in time -/

def spent : ℕ → T
  | 0 => 0
  | n+1 => (receivePacket n (timeout - spent n)).clock - startTime

def received (n : ℕ) : Option P :=
  (receivePacket n (timeout - spent timeout startTime receivePacket n)).packet

/-- The receive is made before the deadline and brings a packet. -/
def InTime (n : ℕ) : Prop :=
  spent timeout startTime receivePacket n < timeout ∧
    received timeout startTime receivePacket n ≠ none

/-- The packets of the receives up to the first that is late or empty. -/
def receivedPackets (n : ℕ) : List P :=
  (List.range n).filterMap (received timeout startTime receivePacket)

end Model

def foundOf : Pass (LoopState P T) (List P) → List P
  | .next s => s.foundPackets
  | .done foundPackets => foundPackets

section Limit

/-- The loop with the limit does what the loop without one does, until it has ended with
as many packets as it may collect. -/
inductive Agrees (k : ℕ) : Pass (LoopState P T) (List P) → Pass (LoopState P T) (List P) → Prop
  | running (s : LoopState P T) (h : s.foundPackets.length < k) : Agrees k (.next s) (.next s)
  | ended (foundPackets : List P) (h : foundPackets.length < k) :
      Agrees k (.done foundPackets) (.done foundPackets)
  | limited (foundPackets : List P) (q : Pass (LoopState P T) (List P))
      (hlength : foundPackets.length = k) (h : foundPackets <+: foundOf q) :
      Agrees k (.done foundPackets) q

variable {k : ℕ}

theorem agrees_take {p q : Pass (LoopState P T) (List P)} (h : Agrees k p q) :
    foundOf p = (foundOf q).take k := by
  cases h with
  | running s h => exact (List.take_of_length_le (Nat.le_of_lt h)).symm
  | ended foundPackets h => exact (List.take_of_length_le (Nat.le_of_lt h)).symm
  | limited foundPackets q hlength h => rw [← hlength, foundOf, List.prefix_iff_eq_take.mp h]; simp

variable [Sub T] [LT T] [DecidableLT T] {isAnswer : P → Bool} {timeout startTime : T}

theorem found_grows (maxAnswers : ℕ) (receivePacket : T → Reception P T)
    (p : Pass (LoopState P T) (List P)) :
    foundOf p <+: foundOf (resume (findPacket isAnswer timeout startTime maxAnswers)
      receivePacket p) := by
  cases p with
  | done foundPackets => exact List.prefix_rfl
  | next s =>
    rw [resume, findPacket]
    by_cases htime : s.timeSpent < timeout
    · rw [if_pos htime]
      simp only
      cases (receivePacket (timeout - s.timeSpent)).packet with
      | none => exact List.prefix_rfl
      | some packet =>
        simp only
        split_ifs
        · exact List.prefix_append _ _
        · exact List.prefix_append _ _
        · exact List.prefix_rfl
    · rw [if_neg htime]
      exact List.prefix_rfl

theorem agrees_pass (receivePacket : T → Reception P T) (hk : 0 < k)
    {p q : Pass (LoopState P T) (List P)} (h : Agrees k p q) :
    Agrees k (resume (findPacket isAnswer timeout startTime k) receivePacket p)
      (resume (findPacket isAnswer timeout startTime 0) receivePacket q) := by
  cases h with
  | ended foundPackets h => exact .ended foundPackets h
  | limited foundPackets q hlength h =>
    exact .limited foundPackets _ hlength (h.trans (found_grows 0 receivePacket q))
  | running s h =>
    rw [resume, resume, findPacket, findPacket]
    by_cases htime : s.timeSpent < timeout
    · rw [if_pos htime, if_pos htime]
      simp only
      cases (receivePacket (timeout - s.timeSpent)).packet with
      | none => exact .ended _ h
      | some packet =>
        simp only
        by_cases hanswer : isAnswer packet = true
        · have hunlimited : ¬ ((0 : ℕ) ≠ 0 ∧ 0 ≤ (s.foundPackets ++ [packet]).length) :=
            fun h => h.1 rfl
          rw [if_pos hanswer, if_pos hanswer, if_neg hunlimited]
          have hlength : (s.foundPackets ++ [packet]).length = s.foundPackets.length + 1 := by simp
          by_cases hlimit : k ≤ (s.foundPackets ++ [packet]).length
          · rw [if_pos ⟨by omega, hlimit⟩]
            exact .limited _ _ (by omega) List.prefix_rfl
          · rw [if_neg fun h => hlimit h.2]
            exact .running _ (Nat.lt_of_not_le hlimit)
        · rw [if_neg hanswer, if_neg hanswer]
          exact .running _ h
    · rw [if_neg htime, if_neg htime]
      exact .ended _ h

theorem pass_next_iff (receive : T → Reception P T) (s t : LoopState P T) :
    findPacket isAnswer timeout startTime 0 receive s = .next t ↔
      s.timeSpent < timeout ∧ ∃ packet, (receive (timeout - s.timeSpent)).packet = some packet ∧
        t = ⟨s.foundPackets ++ [packet].filter isAnswer,
          (receive (timeout - s.timeSpent)).clock - startTime⟩ := by
  rw [findPacket]
  by_cases htime : s.timeSpent < timeout
  · rw [if_pos htime]
    simp only [htime, true_and]
    cases (receive (timeout - s.timeSpent)).packet with
    | none => simp
    | some packet =>
      simp only [Option.some.injEq, exists_eq_left']
      cases hanswer : isAnswer packet with
      | true => simpa [hanswer] using eq_comm
      | false => simpa [hanswer] using eq_comm
  · simp [htime]

theorem pass_done_iff (receive : T → Reception P T) (s : LoopState P T) (foundPackets : List P) :
    findPacket isAnswer timeout startTime 0 receive s = .done foundPackets ↔
      ¬ (s.timeSpent < timeout ∧ (receive (timeout - s.timeSpent)).packet ≠ none) ∧
        foundPackets = s.foundPackets := by
  rw [findPacket]
  by_cases htime : s.timeSpent < timeout
  · rw [if_pos htime]
    simp only [htime, true_and]
    cases (receive (timeout - s.timeSpent)).packet with
    | none => simp [eq_comm]
    | some packet =>
      cases hanswer : isAnswer packet <;> simp [hanswer]
  · simp [htime, eq_comm]

end Limit

section Runs
variable [Sub T] [LT T] [DecidableLT T] [Zero T] (isAnswer : P → Bool) (timeout startTime : T)
  (receivePacket : ℕ → T → Reception P T)

theorem collecting_agrees (k n : ℕ) (hk : 0 < k) :
    Agrees k (collecting isAnswer timeout startTime receivePacket k n)
      (collecting isAnswer timeout startTime receivePacket 0 n) :=
  after_related (Agrees k) (.running ⟨[], 0⟩ hk) (fun receive _ _ h => agrees_pass receive hk h) n

theorem collects_take {k : ℕ} (hk : 0 < k) {foundPackets : List P}
    (h : Collects isAnswer timeout startTime receivePacket 0 foundPackets) :
    Collects isAnswer timeout startTime receivePacket k (foundPackets.take k) := by
  obtain ⟨n, hn⟩ := h
  refine ⟨n, ?_⟩
  have hagrees := collecting_agrees isAnswer timeout startTime receivePacket k n hk
  rw [collecting, collecting, hn] at hagrees
  have htake := agrees_take hagrees
  generalize hp : after (findPacket isAnswer timeout startTime k) receivePacket ⟨[], 0⟩ n = p
    at hagrees htake ⊢
  cases hagrees with
  | ended foundPackets h => exact congrArg Pass.done htake
  | limited foundPackets q hlength h => exact congrArg Pass.done htake

omit [LT T] [DecidableLT T] in
theorem receivedPackets_succ {n : ℕ} {packet : P}
    (h : received timeout startTime receivePacket n = some packet) :
    receivedPackets timeout startTime receivePacket (n + 1) =
      receivedPackets timeout startTime receivePacket n ++ [packet] := by
  rw [receivedPackets, List.range_succ, List.filterMap_append, ← receivedPackets]
  simp [h]

theorem running_iff (n : ℕ) (s : LoopState P T) :
    collecting isAnswer timeout startTime receivePacket 0 n = .next s ↔
      (∀ i < n, InTime timeout startTime receivePacket i) ∧
        s = ⟨(receivedPackets timeout startTime receivePacket n).filter isAnswer,
          spent timeout startTime receivePacket n⟩ := by
  induction n generalizing s with
  | zero => simp [collecting, after, receivedPackets, spent, eq_comm]
  | succ n ih =>
    rw [collecting, after_succ_next_iff, ← collecting, Nat.forall_lt_succ_right]
    simp only [ih, pass_next_iff]
    constructor
    · rintro ⟨u, ⟨hbefore, rfl⟩, htime, packet, hpacket, rfl⟩
      have hreceived : received timeout startTime receivePacket n = some packet := hpacket
      refine ⟨⟨hbefore, htime, by rw [hreceived]; simp⟩, ?_⟩
      rw [receivedPackets_succ timeout startTime receivePacket hreceived, List.filter_append]
      rfl
    · rintro ⟨⟨hbefore, htime, hne⟩, rfl⟩
      obtain ⟨packet, hpacket⟩ := Option.ne_none_iff_exists'.mp hne
      refine ⟨_, ⟨hbefore, rfl⟩, htime, packet, hpacket, ?_⟩
      rw [receivedPackets_succ timeout startTime receivePacket hpacket, List.filter_append]
      rfl

theorem collects_iff (foundPackets : List P) :
    Collects isAnswer timeout startTime receivePacket 0 foundPackets ↔
      ∃ n, (∀ i < n, InTime timeout startTime receivePacket i) ∧
        ¬ InTime timeout startTime receivePacket n ∧
        foundPackets = (receivedPackets timeout startTime receivePacket n).filter isAnswer := by
  rw [Collects, returns_iff_last]
  refine exists_congr fun n => ?_
  have hrunning := running_iff isAnswer timeout startTime receivePacket n
  rw [collecting] at hrunning
  simp only [hrunning, pass_done_iff]
  constructor
  · rintro ⟨s, ⟨hbefore, rfl⟩, hlast, rfl⟩
    exact ⟨hbefore, hlast, rfl⟩
  · rintro ⟨hbefore, hlast, rfl⟩
    exact ⟨_, ⟨hbefore, rfl⟩, hlast, rfl⟩

variable (packet : PacketArg P)

theorem sendReceive_iff (maxAnswers : ℕ) (foundPackets : List P) :
    SendReceive isAnswer timeout startTime receivePacket true packet maxAnswers
        ⟨packet.packets, .ok foundPackets⟩ ↔
      Collects isAnswer timeout startTime receivePacket maxAnswers foundPackets := by
  rw [SendReceive, if_pos rfl]
  constructor
  · rintro ⟨foundPackets', h, heq⟩
    cases heq
    exact h
  · exact fun h => ⟨foundPackets, h, rfl⟩

theorem sendReceivePacketDefault_iff {foundPackets : List P}
    (h : Collects isAnswer timeout startTime receivePacket 0 foundPackets)
    (outcome : Outcome P (Option P)) :
    SendReceivePacketDefault isAnswer timeout startTime receivePacket true packet outcome ↔
      outcome = ⟨packet.packets, .ok foundPackets.head?⟩ := by
  simp only [SendReceivePacketDefault, SendReceivePackets, SendReceive, if_true]
  constructor
  · rintro ⟨o, ⟨foundPackets', h', rfl⟩, rfl⟩
    rw [returns_unique h h']
    rfl
  · rintro rfl
    exact ⟨_, ⟨foundPackets, h, rfl⟩, rfl⟩

theorem sendReceivePacket_iff {foundPackets : List P}
    (h : Collects isAnswer timeout startTime receivePacket 0 foundPackets)
    (outcome : Outcome P (Option P)) :
    SendReceivePacket isAnswer timeout startTime receivePacket true packet outcome ↔
      outcome = ⟨packet.packets, .ok foundPackets.head?⟩ := by
  have hfirst := collects_take isAnswer timeout startTime receivePacket Nat.one_pos h
  have hhead : (foundPackets.take 1).head? = foundPackets.head? := by
    cases foundPackets <;> rfl
  simp only [SendReceivePacket, SendReceive, if_true]
  constructor
  · rintro ⟨o, ⟨foundPackets', h', rfl⟩, rfl⟩
    rw [← returns_unique hfirst h', ← hhead]
    rfl
  · rintro rfl
    refine ⟨_, ⟨_, hfirst, rfl⟩, ?_⟩
    rw [← hhead]
    rfl

/-- Pass by pass a limit keeps the first of the packets found without one, so that the first
answer is what the default of the base class makes of all of them; and these are the
answers among the packets received in time. -/
theorem early_stopping :
    (∀ k n, foundOf (collecting isAnswer timeout startTime receivePacket (k + 1) n) =
      (foundOf (collecting isAnswer timeout startTime receivePacket 0 n)).take (k + 1)) ∧
    (∀ k foundPackets, SendReceivePackets isAnswer timeout startTime receivePacket true packet
        ⟨packet.packets, .ok foundPackets⟩ →
      SendReceive isAnswer timeout startTime receivePacket true packet (k + 1)
        ⟨packet.packets, .ok (foundPackets.take (k + 1))⟩) ∧
    (∀ foundPackets outcome, SendReceivePackets isAnswer timeout startTime receivePacket true packet
        ⟨packet.packets, .ok foundPackets⟩ →
      (SendReceivePacket isAnswer timeout startTime receivePacket true packet outcome ↔
        outcome = ⟨packet.packets, .ok foundPackets.head?⟩) ∧
      (SendReceivePacketDefault isAnswer timeout startTime receivePacket true packet outcome ↔
        outcome = ⟨packet.packets, .ok foundPackets.head?⟩)) ∧
    (∀ foundPackets, SendReceivePackets isAnswer timeout startTime receivePacket true packet
        ⟨packet.packets, .ok foundPackets⟩ ↔
      ∃ n, (∀ i < n, InTime timeout startTime receivePacket i) ∧
        ¬ InTime timeout startTime receivePacket n ∧
        foundPackets = (receivedPackets timeout startTime receivePacket n).filter isAnswer) := by
  refine ⟨?_, ?_, ?_, ?_⟩
  · intro k n
    exact agrees_take (collecting_agrees isAnswer timeout startTime receivePacket (k + 1) n
      k.succ_pos)
  · intro k foundPackets h
    rw [SendReceivePackets, sendReceive_iff] at h
    rw [sendReceive_iff]
    exact collects_take isAnswer timeout startTime receivePacket k.succ_pos h
  · intro foundPackets outcome h
    rw [SendReceivePackets, sendReceive_iff] at h
    exact ⟨sendReceivePacket_iff isAnswer timeout startTime receivePacket packet h outcome,
      sendReceivePacketDefault_iff isAnswer timeout startTime receivePacket packet h outcome⟩
  · intro foundPackets
    rw [SendReceivePackets, sendReceive_iff]
    exact collects_iff isAnswer timeout startTime receivePacket foundPackets

end Runs

end InVehicle.Layer2Socket
