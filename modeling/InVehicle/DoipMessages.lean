import InVehicle.Basic
import InVehicle.Framing
import InVehicle.Words

/-!
# DoIP messages

doipclient is a parameter of the development: what its messages tell, how it
packs them, and what its parser finds at the front of the bytes that it has
collected. `isoClient` is the layout of ISO 13400 that it implements.
-/

set_option autoImplicit false

namespace InVehicle.DoipMessages
open InVehicle.Framing InVehicle.Words

inductive MessageType where
  | genericDoIPNegativeAcknowledge
  | routingActivationRequest
  | routingActivationResponse
  | diagnosticMessage
  | diagnosticMessagePositiveAcknowledgement
  | other
  deriving DecidableEq, Repr

/-- `size` is the length of the frame that a message was read from. -/
structure DoipClient (Msg : Type) where
  type : Msg → MessageType
  responseCode : Msg → ℕ
  sourceAddress : Msg → ℕ
  userData : Msg → Bytes
  size : Msg → ℕ
  routingActivationRequest : ℕ → ℕ → Msg
  diagnosticMessage : ℕ → ℕ → Bytes → Msg
  packDoip : ℕ → Msg → Bytes
  readMessage : Bytes → Option (Msg × Bytes)

def DoipClient.Sized {Msg : Type} (c : DoipClient Msg) : Prop :=
  ∀ b m r, c.readMessage b = some (m, r) → b.length = c.size m + r.length

abbrev Message := ℕ × Bytes

def packMessage (version : ℕ) (m : Message) : Bytes :=
  [UInt8.ofNat version, UInt8.ofNat (255 - version)] ++
    (byte.be 2 m.1 ++ (byte.be 4 m.2.length ++ m.2))

def readMessage (b : Bytes) : Option (Message × Bytes) :=
  let n := byte.ofBe ((b.drop 4).take 4)
  if b.length < 8 + n then none
  else some ((byte.ofBe ((b.drop 2).take 2), (b.drop 8).take n), b.drop (8 + n))

def messageType (m : Message) : MessageType :=
  if m.1 = 0x0000 then .genericDoIPNegativeAcknowledge
  else if m.1 = 0x0005 then .routingActivationRequest
  else if m.1 = 0x0006 then .routingActivationResponse
  else if m.1 = 0x8001 then .diagnosticMessage
  else if m.1 = 0x8002 then .diagnosticMessagePositiveAcknowledgement
  else .other

def isoClient : DoipClient Message where
  type := messageType
  responseCode m := byte.ofBe ((m.2.drop 4).take 1)
  sourceAddress m := byte.ofBe (m.2.take 2)
  userData m := m.2.drop 4
  size m := 8 + m.2.length
  routingActivationRequest client activation :=
    (0x0005, byte.be 2 client ++ byte.be 1 activation ++ byte.be 4 0)
  diagnosticMessage source target userData :=
    (0x8001, byte.be 2 source ++ byte.be 2 target ++ userData)
  packDoip := packMessage
  readMessage := readMessage

theorem isoClient_sized : isoClient.Sized := by
  intro b m r h
  simp only [isoClient, readMessage] at h ⊢
  split_ifs at h with hlen
  cases h
  simp only [List.length_take, List.length_drop]
  omega

theorem packMessage_length (version : ℕ) (m : Message) :
    (packMessage version m).length = 8 + m.2.length := by
  simp only [packMessage, List.length_append, byte.length_be, List.length_cons, List.length_nil]
  omega

theorem packMessage_header (version : ℕ) (m : Message) (hl : m.2.length < 256 ^ 4)
    (p q : Bytes) (h : packMessage version m = p ++ q) (hp : 8 ≤ p.length) :
    byte.ofBe ((p.drop 4).take 4) = m.2.length := by
  have hlen : (byte.be 2 m.1).length = 2 := byte.length_be 2 m.1
  have htake : (p.drop 4).take 4 = ((packMessage version m).drop 4).take 4 := by
    rw [h, List.drop_append_of_le_length (by omega), List.take_append_of_le_length]
    rw [List.length_drop]
    omega
  rw [htake, packMessage, ← List.append_assoc, List.drop_left' (by simp), List.take_left' (by simp),
    byte.ofBe_be 4 _ hl]

theorem packMessage_frame (version : ℕ) (m : Message) (ht : m.1 < 256 ^ 2)
    (hl : m.2.length < 256 ^ 4) : IsFrame readMessage (packMessage version m) m := by
  have hw := packMessage_length version m
  constructor
  · intro hnil
    rw [hnil, List.length_nil] at hw
    omega
  · intro r
    have hn : byte.ofBe (((packMessage version m ++ r).drop 4).take 4) = m.2.length := by
      rw [List.drop_append_of_le_length (by omega), List.take_append_of_le_length]
      · exact packMessage_header version m hl _ [] (List.append_nil _).symm (by omega)
      · rw [List.length_drop]
        omega
    have htype : ((packMessage version m ++ r).drop 2).take 2 = byte.be 2 m.1 := by
      rw [packMessage, List.append_assoc, List.append_assoc, List.drop_left' (by rfl),
        List.take_left' (by simp)]
    have hpay : ((packMessage version m ++ r).drop 8).take m.2.length = m.2 := by
      rw [packMessage, ← List.append_assoc, ← List.append_assoc, List.append_assoc,
        List.drop_left' (by simp), List.take_left' rfl]
    have hrest : (packMessage version m ++ r).drop (8 + m.2.length) = r :=
      List.drop_left' hw
    simp only [readMessage, hn, htype, hpay, hrest, byte.ofBe_be 2 m.1 ht, List.length_append, hw]
    rw [if_neg (by omega)]
  · intro p q h hq
    have hqpos := List.length_pos_iff.mpr hq
    have hsum := congrArg List.length h
    rw [hw, List.length_append] at hsum
    simp only [readMessage]
    by_cases hp : 8 ≤ p.length
    · rw [packMessage_header version m hl p q h hp, if_pos (by omega)]
    · rw [if_pos (by omega)]

end InVehicle.DoipMessages
