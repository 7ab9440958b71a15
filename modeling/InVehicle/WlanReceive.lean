import InVehicle.WlanBeacon

/-!
# Receiving captured frames

`WiFiRawSocket.receive` hands the next datagram of its interface to `WiFiPacket`.
What the vendored radiotap parser returns is a parameter: the length of the header
and its dictionary, of which the channel is looked at.
-/

set_option autoImplicit false

namespace InVehicle.WlanReceive
open InVehicle.Formats InVehicle.Formats.Format InVehicle.FormatLaws InVehicle.WlanEnums
open InVehicle.WlanElements InVehicle.WlanFrame InVehicle.WlanElementLaws InVehicle.WlanFrameLaws
open InVehicle.WlanRebuild
open InVehicle.WlanBeacon (init_eq_ok)

/-- The entries `chan_freq`, `chan_flags` and `channel` of the radiotap dictionary. -/
structure Radiotap where
  chanFreq : Option ℕ
  chanFlags : Option ℕ
  channel : Option ℕ
  deriving DecidableEq, Repr

def convertFreqToChannel (centerFreqMhz : ℕ) : Except Failure ℕ :=
  if 2407 ≤ centerFreqMhz ∧ centerFreqMhz ≤ 2484 then .ok ((centerFreqMhz - 2407) / 5)
  else .error .valueError

variable (radiotapParse : Bytes → ℕ × Radiotap)

def parseRadiotap (rawPacket : Bytes) : Except Failure (Radiotap × Bytes) := do
  let (headerLength, parsedHeader) := radiotapParse rawPacket
  let packetData := rawPacket.drop headerLength
  match parsedHeader.chanFlags, parsedHeader.chanFreq with
  | some _, some chanFreq =>
    let channel ← convertFreqToChannel chanFreq
    return ({ parsedHeader with channel := some channel }, packetData)
  | _, _ => return (parsedHeader, packetData)

structure WiFiPacket where
  data : Bytes
  radiotapHeader : Radiotap
  packetData : Bytes
  packet : WlanSecurity.WiFiPacket

/-- `WiFiPacket(data)`. -/
def WiFiPacket.init (data : Bytes) : Except Failure WiFiPacket := do
  let (radiotapHeader, packetData) ← parseRadiotap radiotapParse data
  let packet ← WlanSecurity.init packetData
  return ⟨data, radiotapHeader, packetData, packet⟩

inductive ReceiveError where
  | failure (f : Failure)
  | closedInterface
  deriving DecidableEq, Repr

/-- The handler of `receive` names an error of the library, and parses the
radiotap header once more for the log. -/
def handle (data : Bytes) : Failure → Except ReceiveError (Option WiFiPacket)
  | .construct =>
    match parseRadiotap radiotapParse data with
    | .ok _ | .error .construct => .ok none
    | .error e => .error (.failure e)
  | e => .error (.failure e)

/-- `receive` on the datagrams to come, each with the interface it came in on. It
is still waiting where there is no result. -/
def receiveFrom (ifName : String) :
    List (Bytes × String) → Option (Except ReceiveError (Option WiFiPacket))
  | [] => none
  | (data, receivedFrom) :: rest =>
    if receivedFrom ≠ ifName then receiveFrom ifName rest
    else match WiFiPacket.init radiotapParse data with
      | .ok p => some (.ok (some p))
      | .error e => some (handle radiotapParse data e)

def receive (ifName : String) :
    Option (List (Bytes × String)) → Option (Except ReceiveError (Option WiFiPacket))
  | none => some (.error .closedInterface)
  | some datagrams => receiveFrom radiotapParse ifName datagrams

/-! ## The length of a frame -/

def managementLength : ManagementSubtype → ℕ
  | .associationRequest => 4
  | .associationResponse | .reassociationResponse | .authentication => 6
  | .reassociationRequest => 10
  | .probeResponse | .beacon => 12
  | .disassociation | .deauthentication => 2
  | .action | .actionNoAck => 1
  | .probeRequest | .timingAdvertisement | .reserved1 | .atim | .reserved2 => 0

def dataLength (fc : FrameControl) (s : DataSubtype) : ℕ :=
  if s = .reserved13 then 0 else headerLength fc s

def bodyLength (fc : FrameControl) : ℕ :=
  match fc.type, fc.subtype with
  | .management, .management s => managementLength s
  | .data, .data s => dataLength fc s
  | _, _ => 0

/-- The frame is as long as the fields its frame control calls for. -/
def FrameLong : Bytes → Prop
  | x :: y :: s =>
    let fc := frameControlOf x y
    (if fc.type = .control then 8 else 22 + bodyLength fc) ≤ s.length
  | _ => False

instance : DecidablePred FrameLong
  | [] | [_] => isFalse id
  | _ :: _ :: s => inferInstanceAs (Decidable (_ ≤ s.length))

instance : Demands greedyBody 0 := by unfold greedyBody; infer_instance
instance : Demands informationElements 0 := demands_greedyRange
instance : Demands associationRequest 4 := by unfold associationRequest; infer_instance
instance : Demands associationResponse 6 := by unfold associationResponse; infer_instance
instance : Demands reassociationRequest 10 := by unfold reassociationRequest; infer_instance
instance : Demands probeRequest 0 := by unfold probeRequest; infer_instance
instance : Demands probeResponse 12 := by unfold probeResponse; infer_instance
instance : Demands beacon 12 := by unfold beacon; infer_instance
instance : Demands disassociation 2 := by unfold disassociation; infer_instance
instance : Demands authentication 6 := by unfold authentication; infer_instance
instance : Demands action 1 := by unfold action; infer_instance

instance (fc : FrameControl) (s : DataSubtype) :
    Demands (dataFrameWithBody fc s) (headerLength fc s) := by
  unfold dataFrameWithBody
  infer_instance

instance (fc : FrameControl) (s : DataSubtype) :
    Demands (dataFrameWithoutBody fc s) (headerLength fc s) := by
  unfold dataFrameWithoutBody
  infer_instance

theorem demands_management (s : ManagementSubtype) :
    Demands (managementSubtypeParsers s) (managementLength s) := by
  cases s <;> (simp only [managementSubtypeParsers, managementLength]; infer_instance)

theorem demands_data (fc : FrameControl) (s : DataSubtype) :
    Demands (dataSubtypeParsers fc s) (dataLength fc s) := by
  cases s <;> (simp only [dataSubtypeParsers]; infer_instance)

theorem demands_body (fc : FrameControl) : Demands (frameTypeParsers fc) (bodyLength fc) := by
  simp only [frameTypeParsers, bodyLength]
  generalize fc.type = type
  generalize fc.subtype = subtype
  cases type <;> cases subtype <;>
    first | exact demands_management _ | exact demands_data fc _ | infer_instance

theorem demands_frameTail (fc : FrameControl) :
    Demands (frameTail fc) (if fc.type = .control then 8 else 22 + bodyLength fc) := by
  have := demands_body fc
  by_cases h : fc.type = .control
  · simp only [frameTail, h, ne_eq, not_true_eq_false, decide_false, decide_true, if_true]
    infer_instance
  · simp only [frameTail, h, ne_eq, not_false_eq_true, decide_false, decide_true, if_false]
    have hsum : 22 + bodyLength fc = 2 + (6 + (6 + (6 + (0 + (2 + bodyLength fc))))) := by omega
    rw [hsum]
    infer_instance

theorem frame_accepted (b : Bytes) :
    (∃ v s, wifiFrameHeader.parse b = .ok (v, s)) ↔ FrameLong b := by
  have hmap : (∃ v s, wifiFrameHeader.parse b = .ok (v, s)) ↔
      ∃ v s, (frameControl.seq frameTail).parse b = .ok (v, s) := by
    constructor
    · rintro ⟨v, s, h⟩
      obtain ⟨a, ha, -⟩ := (map_parse _).mp h
      exact ⟨a, s, ha⟩
    · rintro ⟨a, s, h⟩
      exact ⟨_, s, (map_parse _).mpr ⟨a, h, rfl⟩⟩
  rw [hmap]
  match b with
  | [] | [_] =>
    simp only [FrameLong, iff_false]
    rintro ⟨v, s, h⟩
    obtain ⟨r, hr, -⟩ := (seq_parse _ _).mp h
    exact absurd (sized_drop hr).1 (by simp)
  | x :: y :: s =>
    have hd := demands_frameTail (frameControlOf x y)
    have h := accepts_seq (f := frameControl) (g := frameTail) (b := x :: y :: s)
      (n := if (frameControlOf x y).type = .control then 8
        else 22 + bodyLength (frameControlOf x y))
      fun a ha => by
        rw [frameControl_parse] at ha
        cases ha
        exact hd
    rw [h]
    simp only [FrameLong, List.length_cons]
    omega

theorem init_iff (b : Bytes) : (∃ p, WlanSecurity.init b = .ok p) ↔ FrameLong b := by
  rw [← frame_accepted]
  constructor
  · rintro ⟨p, hp⟩
    obtain ⟨v, s, hv, -⟩ := init_eq_ok.mp hp
    exact ⟨v, s, hv⟩
  · rintro ⟨v, s, hv⟩
    exact ⟨_, init_eq_ok.mpr ⟨v, s, hv, rfl⟩⟩

theorem init_ne_construct (b : Bytes) : WlanSecurity.init b ≠ .error .construct := by
  intro hc
  cases h : wifiFrameHeader.parse b with
  | error e => cases e <;> simp [WlanSecurity.init, parseAll, h, Except.map] at hc
  | ok r => cases hc.symm.trans (init_eq_ok.mpr ⟨r.1, r.2, h, rfl⟩)

/-! ## What becomes of a datagram -/

/-- The channel is not given, or one of the 2.4 GHz band. -/
def InBand (h : Radiotap) : Prop :=
  ∀ flags freq, h.chanFlags = some flags → h.chanFreq = some freq → 2407 ≤ freq ∧ freq ≤ 2484

theorem parseRadiotap_band (data : Bytes) (h : InBand (radiotapParse data).2) :
    ∃ header, parseRadiotap radiotapParse data =
      .ok (header, data.drop (radiotapParse data).1) := by
  cases hflags : (radiotapParse data).2.chanFlags with
  | none => exact ⟨_, by simp only [parseRadiotap, hflags]; rfl⟩
  | some flags =>
    cases hfreq : (radiotapParse data).2.chanFreq with
    | none => exact ⟨_, by simp only [parseRadiotap, hflags, hfreq]; rfl⟩
    | some freq =>
      have hband := h flags freq hflags hfreq
      exact ⟨_, by
        simp only [parseRadiotap, hflags, hfreq, convertFreqToChannel, if_pos hband]
        rfl⟩

theorem parseRadiotap_error (data : Bytes) (h : ¬ InBand (radiotapParse data).2) :
    parseRadiotap radiotapParse data = .error .valueError := by
  simp only [InBand, not_forall] at h
  obtain ⟨flags, freq, hflags, hfreq, hband⟩ := h
  simp only [parseRadiotap, hflags, hfreq, convertFreqToChannel, if_neg hband]
  rfl

def macFrame (data : Bytes) : Bytes := data.drop (radiotapParse data).1

theorem packet_error (data : Bytes) (h : ¬ InBand (radiotapParse data).2) :
    WiFiPacket.init radiotapParse data = .error .valueError := by
  rw [WiFiPacket.init, parseRadiotap_error radiotapParse data h]
  rfl

theorem packet_frame (data : Bytes) (h : InBand (radiotapParse data).2) :
    ∃ header, WiFiPacket.init radiotapParse data =
      (WlanSecurity.init (macFrame radiotapParse data)).map fun packet =>
        ⟨data, header, macFrame radiotapParse data, packet⟩ := by
  obtain ⟨header, hheader⟩ := parseRadiotap_band radiotapParse data h
  refine ⟨header, ?_⟩
  rw [WiFiPacket.init, hheader]
  change WlanSecurity.init (macFrame radiotapParse data) >>= _ = _
  cases WlanSecurity.init (macFrame radiotapParse data) <;> rfl

theorem packet_iff (data : Bytes) (h : InBand (radiotapParse data).2) :
    (∃ p, WiFiPacket.init radiotapParse data = .ok p) ↔
      FrameLong (macFrame radiotapParse data) := by
  obtain ⟨header, hp⟩ := packet_frame radiotapParse data h
  rw [← init_iff, hp]
  cases WlanSecurity.init (macFrame radiotapParse data) <;> simp [Except.map]

theorem packet_ne_construct (data : Bytes) :
    WiFiPacket.init radiotapParse data ≠ .error .construct := by
  by_cases h : InBand (radiotapParse data).2
  · obtain ⟨header, hp⟩ := packet_frame radiotapParse data h
    have hne := init_ne_construct (macFrame radiotapParse data)
    rw [hp]
    cases hi : WlanSecurity.init (macFrame radiotapParse data) with
    | ok q => simp [Except.map]
    | error e =>
      rw [hi] at hne
      simpa [Except.map] using hne
  · rw [packet_error radiotapParse data h]
    simp

theorem handle_error (data : Bytes) (e : Failure) (h : e ≠ .construct) :
    handle radiotapParse data e = .error (.failure e) := by
  cases e with
  | construct => exact absurd rfl h
  | keyError | attributeError | valueError => rfl

theorem receiveFrom_skip (ifName : String) (before datagrams : List (Bytes × String))
    (h : ∀ d ∈ before, d.2 ≠ ifName) :
    receiveFrom radiotapParse ifName (before ++ datagrams) =
      receiveFrom radiotapParse ifName datagrams := by
  induction before with
  | nil => rfl
  | cons d before ih =>
    obtain ⟨hd, hrest⟩ := List.forall_mem_cons.mp h
    rw [List.cons_append, receiveFrom, if_pos hd, ih hrest]

theorem receiveFrom_packet (ifName : String) (data : Bytes) (rest : List (Bytes × String)) :
    (∃ p, receiveFrom radiotapParse ifName ((data, ifName) :: rest) = some (.ok p)) ↔
      ∃ p, WiFiPacket.init radiotapParse data = .ok p := by
  rw [receiveFrom, if_neg (not_not.mpr rfl)]
  cases h : WiFiPacket.init radiotapParse data with
  | ok p => simp
  | error e =>
    have he : e ≠ .construct := by
      rintro rfl
      exact packet_ne_construct radiotapParse data h
    simp [handle_error radiotapParse data e he]

/-- `receive` raises nothing exactly on a channel of the band and a frame that has
all of its fixed fields. -/
theorem receive_iff (ifName : String) (before rest : List (Bytes × String)) (data : Bytes)
    (hbefore : ∀ d ∈ before, d.2 ≠ ifName) :
    (∃ p, receive radiotapParse ifName (some (before ++ (data, ifName) :: rest)) = some (.ok p)) ↔
      InBand (radiotapParse data).2 ∧ FrameLong (macFrame radiotapParse data) := by
  rw [receive, receiveFrom_skip radiotapParse ifName before _ hbefore, receiveFrom_packet]
  by_cases h : InBand (radiotapParse data).2
  · rw [packet_iff radiotapParse data h]
    exact (and_iff_right h).symm
  · rw [packet_error radiotapParse data h]
    simp [h]

/-- The radiotap parser on headers whose presence word names the channel alone. -/
def channelOnly : Bytes → ℕ × Radiotap
  | 0 :: 0 :: l₀ :: l₁ :: 8 :: 0 :: 0 :: 0 :: f₀ :: f₁ :: g₀ :: g₁ :: _ =>
    (l₀.toNat + 256 * l₁.toNat,
      ⟨some (f₀.toNat + 256 * f₁.toNat), some (g₀.toNat + 256 * g₁.toNat), none⟩)
  | _ => (0, ⟨none, none, none⟩)

def header2412 : Bytes := [0, 0, 12, 0, 8, 0, 0, 0, 0x6C, 0x09, 0xC0, 0x00]
def header5180 : Bytes := [0, 0, 12, 0, 8, 0, 0, 0, 0x3C, 0x14, 0x40, 0x01]

/-- An acknowledgement, and the beginning of a beacon. -/
def acknowledgement : Bytes := [0xD4, 0, 0, 0, 2, 0, 0, 0, 0, 1]
def truncatedBeacon : Bytes := [0x80, 0, 0, 0]

theorem inBand_header2412 {b : Bytes} : InBand (channelOnly (header2412 ++ b)).2 := by
  rintro flags freq - hfreq
  cases hfreq
  decide

theorem receive_acknowledgement :
    ∃ p, receive channelOnly "wlan0" (some [([1, 2], "eth0"), (header2412 ++ acknowledgement,
      "wlan0")]) = some (.ok p) :=
  (receive_iff channelOnly "wlan0" [([1, 2], "eth0")] [] (header2412 ++ acknowledgement)
    (by decide)).mpr ⟨inBand_header2412, by decide +kernel⟩

/-- A capture on channel 36, and one on channel 1 that is cut short. -/
theorem receive_raises :
    receive channelOnly "wlan0" (some [(header5180 ++ acknowledgement, "wlan0")]) =
        some (.error (.failure .valueError)) ∧
      receive channelOnly "wlan0" (some [(header2412 ++ truncatedBeacon, "wlan0")]) =
        some (.error (.failure .attributeError)) := by
  have hparse : wifiFrameHeader.parseAll truncatedBeacon = .error .construct := by decide +kernel
  have hinit : WlanSecurity.init truncatedBeacon = .error .attributeError := by
    rw [WlanSecurity.init, hparse]
  have hmac : macFrame channelOnly (header2412 ++ truncatedBeacon) = truncatedBeacon := by decide
  obtain ⟨header, hp⟩ := packet_frame channelOnly (header2412 ++ truncatedBeacon) inBand_header2412
  rw [hmac, hinit] at hp
  exact ⟨rfl, by simp only [receive, receiveFrom, hp]; rfl⟩

end InVehicle.WlanReceive
