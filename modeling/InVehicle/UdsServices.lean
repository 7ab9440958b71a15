import InVehicle.Effect
import InVehicle.HexText
import InVehicle.UdsSoundness

/-!
# The services of the UDS library

The services of `UdsUtils` that make one exchange, over a link that answers as it likes
to all the exchanges before. udsoncan makes the requests and interprets the responses.
-/

set_option autoImplicit false

namespace InVehicle.UdsServices
open InVehicle.Effect InVehicle.TextCodecs InVehicle.HexText InVehicle.UdsExchange
  InVehicle.UdsSoundness

inductive LibraryError where
  | valueError
  | other (name : String)
  deriving DecidableEq, Repr

inductive ServiceError where
  | uds (e : UdsError)
  | library (e : LibraryError)
  | typeError
  | notImplementedError (text : String)
  deriving DecidableEq, Repr

structure Service (α β : Type) where
  makeRequest : α → Except LibraryError Request
  interpretResponse : RawUdsResponse → Except LibraryError β

structure RoutineArgs where
  routineId : ℤ
  controlType : ℤ
  data : Option Bytes

structure DownloadArgs where
  address : ℤ
  memorysize : ℤ
  encComp : ℤ
  addressFormat : ℤ
  memorysizeFormat : ℤ

inductive UdsStandardVersion where
  | iso14229_2006
  | iso14229_2013
  | iso14229_2020
  deriving DecidableEq, Repr

structure DtcArgs where
  subfunction : ℤ
  statusMask : Option ℤ
  severityMask : Option ℤ
  dtc : Option ℤ
  snapshotRecordNumber : Option ℤ
  extendedDataRecordNumber : Option ℤ
  memorySelection : Option ℤ
  standardVersion : UdsStandardVersion

structure ClearArgs where
  group : ℤ
  memorySelection : Option ℤ
  standardVersion : UdsStandardVersion

/-- udsoncan: the echoes and records that the code takes from each response. -/
structure Udsoncan (Routine Dtc : Type) where
  fromPayload : Bytes → RawUdsResponse
  ecuReset : Service ℤ ℤ
  routineControl : Service RoutineArgs Routine
  testerPresent : Service Unit ℤ
  writeDataByIdentifier : Service (ℤ × Bytes) ℤ
  requestDownload : Service DownloadArgs ℕ
  transferData : Service (ℤ × Bytes) ℤ
  requestTransferExit : Service (Option Bytes) Bytes
  readDtcInformation : DtcArgs → Service Unit Dtc
  clearDiagnosticInformation : Service ClearArgs Unit

structure Exchanged where
  request : Request
  events : List Event
  outcome : Outcome

abbrev Uds (α : Type) : Type := Prog (List Exchanged) ServiceError α

def ofLibrary {α : Type} : Except LibraryError α → Uds α
  | .ok a => pure a
  | .error e => Prog.raise (.library e)

/-- The library and the link, which knows all that was exchanged before. -/
structure UdsUtils (Routine Dtc : Type) where
  udsoncan : Udsoncan Routine Dtc
  attempts : ℕ
  link : List Exchanged → ℕ → Attempt

/-- The characters that `bytes.fromhex` skips. -/
def isBlank (c : Char) : Bool :=
  c = ' ' || c = '\t' || c = '\n' || c = '\r' || c.toNat = 11 || c.toNat = 12

/-- `bytes.fromhex`: there may be blanks in front of a byte, and behind the last. -/
def bytesFromhex : Text → Option Bytes
  | [] => some []
  | [c] => if isBlank c then some [] else none
  | c :: d :: t =>
    if isBlank c then bytesFromhex (d :: t)
    else do
      let high ← hexValue c
      let low ← hexValue d
      let rest ← bytesFromhex t
      return UInt8.ofNat (16 * high + low) :: rest

inductive DidValue where
  | text (value : Text)
  | bytes (value : Bytes)

/-- `HexStringCodec.encode` and `RawBytesCodec.encode` -/
def DidValue.encode : DidValue → Except LibraryError Bytes
  | .text value =>
    match bytesFromhex value with
    | some data => .ok data
    | none => .error .valueError
  | .bytes value => .ok value

namespace UdsUtils

variable {Routine Dtc : Type} (u : UdsUtils Routine Dtc)

/-- `_send_and_read_response` -/
def exchange (request : Request) (timeout : ℚ) : Uds RawUdsResponse := fun log =>
  match sendAndReadResponse u.udsoncan.fromPayload request u.attempts timeout (u.link log) with
  | (.ok response, events) => (.ok response, log ++ [⟨request, events, .ok response⟩])
  | (.error e, events) => (.error (.uds e), log ++ [⟨request, events, .error e⟩])

def call {α β : Type} (service : Service α β) (args : α) (timeout : ℚ) : Uds β := do
  let request ← ofLibrary (service.makeRequest args)
  let response ← u.exchange request timeout
  ofLibrary (service.interpretResponse response)

def ecuReset (resetType : ℤ) (timeout : ℚ) : Uds Bool := do
  let resetTypeEcho ← u.call u.udsoncan.ecuReset resetType timeout
  return resetTypeEcho == resetType

def routineControl (args : RoutineArgs) (timeout : ℚ) : Uds Routine :=
  u.call u.udsoncan.routineControl args timeout

def testerPresent (timeout : ℚ) : Uds Bool := do
  let subfunctionEcho ← u.call u.udsoncan.testerPresent () timeout
  return subfunctionEcho == 0

def writeDid (did : ℤ) (value : DidValue) (timeout : ℚ) : Uds Bool := do
  let data ← ofLibrary value.encode
  let didEcho ← u.call u.udsoncan.writeDataByIdentifier (did, data) timeout
  return didEcho == did

def requestDownload (args : DownloadArgs) (timeout : ℚ) : Uds ℕ :=
  u.call u.udsoncan.requestDownload args timeout

def unexpectedSequence (respSeq seq : ℤ) : String :=
  "Unexpected sequence number response " ++ toString respSeq ++ ", expected " ++ toString seq ++
    "."

def transferData (seq : ℤ) (data : Bytes) (timeout : ℚ) : Uds Unit := do
  let respSeq ← u.call u.udsoncan.transferData (seq, data) timeout
  if respSeq ≠ seq then Prog.raise (.uds (.invalidResponse (unexpectedSequence respSeq seq)))
  else pure ()

def transferExit (data : Option Bytes) (timeout : ℚ) : Uds Bytes :=
  u.call u.udsoncan.requestTransferExit data timeout

def readDtcInformation (args : DtcArgs) (timeout : ℚ) : Uds Dtc :=
  u.call (u.udsoncan.readDtcInformation args) () timeout

def clearDiagnosticInformation (args : ClearArgs) (timeout : ℚ) : Uds Bool := do
  u.call u.udsoncan.clearDiagnosticInformation args timeout
  return true

end UdsUtils

/-! ## Values that are written back -/

theorem not_isBlank {n : ℕ} (h : n < 16) : isBlank (hexDigit n) = false := by
  have hall : ∀ n : Fin 16, isBlank (hexDigit n) = false := by decide
  exact hall ⟨n, h⟩

theorem bytesFromhex_hex (b : Bytes) : bytesFromhex (hex b) = some b := by
  induction b with
  | nil => rfl
  | cons x b ih =>
    have hx := x.toNat_lt
    have hhigh := hexValue_hexDigit (x.toNat / 16) (by omega)
    have hlow := hexValue_hexDigit (x.toNat % 16) (by omega)
    have hblank : isBlank (hexDigit (x.toNat / 16)) = false := not_isBlank (by omega)
    have hbyte : UInt8.ofNat (16 * (x.toNat / 16) + x.toNat % 16) = x := by
      rw [Nat.div_add_mod, UInt8.ofNat_toNat]
    rw [hex_cons, bytesFromhex, hblank, hhigh, hlow, ih]
    exact congrArg (fun y => some (y :: b)) hbyte

section Confirmed

variable {Routine Dtc : Type} (u : UdsUtils Routine Dtc)

theorem writeDid_hex (did : ℤ) (b : Bytes) (timeout : ℚ) :
    u.writeDid did (.text (hex b)) timeout = u.writeDid did (.bytes b) timeout := by
  have hencode : (DidValue.text (hex b)).encode = (DidValue.bytes b).encode := by
    rw [DidValue.encode, bytesFromhex_hex]
    rfl
  rw [UdsUtils.writeDid, hencode]
  rfl

/-! ## What a service reports -/

/-- A positive response to the service, received behind the request. -/
structure Answered (x : Exchanged) (response : RawUdsResponse) : Prop where
  outcome : x.outcome = .ok response
  received : ReceivedAfterSend u.udsoncan.fromPayload x.request x.events response
  valid : response.valid = true
  same_service : response.responseId = x.request.responseId
  positive : response.positive = true

theorem sendAndReadResponse_sound (fromPayload : Bytes → RawUdsResponse) (request : Request)
    (attempts : ℕ) (timeout : ℚ) (history : ℕ → Attempt) {response : RawUdsResponse}
    {events : List Event} (h : sendAndReadResponse fromPayload request attempts timeout history =
      (.ok response, events)) :
    ReceivedAfterSend fromPayload request events response ∧ response.valid = true ∧
      response.responseId = request.responseId ∧ response.positive = true := by
  rw [sendAndReadResponse] at h
  have hl := holds_empty fromPayload request timeout none
  have hret := loop_returned fromPayload request ((List.range attempts).map history) _ hl
  have hhead := loop_head fromPayload request ((List.range attempts).map history)
    ⟨timeout, [], none⟩
  rcases hx : sendAndReadRawResponse fromPayload request attempts timeout history with ⟨e | r, es⟩
  · rw [hx] at h
    cases h
  · rw [hx] at h
    change attemptLoop fromPayload request ⟨timeout, [], none⟩ _ = _ at hx
    rw [hx] at hret
    obtain ⟨n, es', hes, hn⟩ := hhead r (congrArg Prod.fst hx) rfl
    rw [hx] at hes
    change es = _ at hes
    by_cases hpositive : r.positive = true
    · simp only [hpositive, if_true] at h
      cases h
      obtain ⟨b, rfl, hkind, hb⟩ := hret
      have hanswer : kind fromPayload request b = .answer := by
        refine hkind.resolve_right fun hpending => ?_
        have hp := (kind_pending fromPayload request b hpending).2.2.2
        simp [isPending, hpositive] at hp
      obtain ⟨hne, hvalid, hid, -⟩ := kind_answer fromPayload request b hanswer
      have hlast : LastReply events b := hb.resolve_right fun hb => hne hb.2.symm
      rw [hes] at hlast ⊢
      exact ⟨lastReply_received fromPayload request timeout n es' b hn hne hlast, hvalid, hid,
        hpositive⟩
    · simp only [hpositive] at h
      cases h

variable (log : List Exchanged)

theorem exchange_answered (request : Request) (timeout : ℚ) :
    Ensures (· = log) (u.exchange request timeout)
      (fun response t => ∃ x, t = log ++ [x] ∧ x.request = request ∧ Answered u x response)
      (fun e t => ∃ x e', t = log ++ [x] ∧ x.request = request ∧ x.outcome = .error e' ∧
        e = .uds e') := by
  intro s hs
  rw [UdsUtils.exchange, hs]
  rcases hx : sendAndReadResponse u.udsoncan.fromPayload request u.attempts timeout (u.link log)
    with ⟨e | response, events⟩
  · exact ⟨_, e, rfl, rfl, rfl, rfl⟩
  · obtain ⟨hreceived, hvalid, hid, hpositive⟩ := sendAndReadResponse_sound _ _ _ _ _ hx
    exact ⟨⟨request, events, .ok response⟩, rfl, rfl, rfl, hreceived, hvalid, hid, hpositive⟩

inductive Ended {α β : Type} (service : Service α β) (args : α) (log : List Exchanged) :
    Except ServiceError β → List Exchanged → Prop
  | refused {e : LibraryError} (h : service.makeRequest args = .error e) :
      Ended service args log (.error (.library e)) log
  | unanswered {x : Exchanged} {e : UdsError} (h : service.makeRequest args = .ok x.request)
      (hx : x.outcome = .error e) : Ended service args log (.error (.uds e)) (log ++ [x])
  | illegible {x : Exchanged} {response : RawUdsResponse} {e : LibraryError}
      (h : service.makeRequest args = .ok x.request) (hx : Answered u x response)
      (he : service.interpretResponse response = .error e) :
      Ended service args log (.error (.library e)) (log ++ [x])
  | answered {x : Exchanged} {response : RawUdsResponse} {b : β}
      (h : service.makeRequest args = .ok x.request) (hx : Answered u x response)
      (hb : service.interpretResponse response = .ok b) :
      Ended service args log (.ok b) (log ++ [x])

theorem call_ended {α β : Type} (service : Service α β) (args : α) (timeout : ℚ) :
    Ended u service args log (u.call service args timeout log).1
      (u.call service args timeout log).2 := by
  cases hmake : service.makeRequest args with
  | error e =>
    have hrun : u.call service args timeout log = (.error (.library e), log) := by
      rw [UdsUtils.call, hmake]
      rfl
    rw [hrun]
    exact .refused hmake
  | ok request =>
    have hrequest : ofLibrary (service.makeRequest args) log = (.ok request, log) := by
      rw [hmake]
      rfl
    rw [UdsUtils.call, bind_ok hrequest]
    obtain ⟨response, t, hrun, x, rfl, rfl, hx⟩ | ⟨e, t, hrun, x, e', rfl, rfl, hx, rfl⟩ :=
      (exchange_answered u log request timeout).ends rfl
    · rw [bind_ok hrun]
      cases hinterpret : service.interpretResponse response with
      | error e => exact .illegible hmake hx hinterpret
      | ok b => exact .answered hmake hx hinterpret
    · rw [bind_error hrun]
      exact .unanswered hmake hx

/-- One exchange was made, which was answered and interpreted. -/
def Done {α β : Type} (service : Service α β) (args : α) (b : β) (t : List Exchanged) : Prop :=
  ∃ x response, t = log ++ [x] ∧ Answered u x response ∧
    service.makeRequest args = .ok x.request ∧ service.interpretResponse response = .ok b

def Tried {α β : Type} (service : Service α β) (args : α) (t : List Exchanged) : Prop :=
  t = log ∨ ∃ x, t = log ++ [x] ∧ service.makeRequest args = .ok x.request

theorem call_answered {α β : Type} (service : Service α β) (args : α) (timeout : ℚ) :
    Ensures (· = log) (u.call service args timeout) (Done u log service args)
      (fun _ => Tried log service args) := by
  intro s hs
  rw [hs]
  have h := call_ended u log service args timeout
  rcases hrun : u.call service args timeout log with ⟨r, t⟩
  rw [hrun] at h
  cases h with
  | refused hmake => exact .inl rfl
  | unanswered hmake hx => exact .inr ⟨_, rfl, hmake⟩
  | illegible hmake hx he => exact .inr ⟨_, rfl, hmake⟩
  | answered hmake hx hb => exact ⟨_, _, rfl, hx, hmake, hb⟩

end Confirmed

/-! ## All services -/

inductive Call where
  | ecuReset (resetType : ℤ)
  | routineControl (args : RoutineArgs)
  | testerPresent
  | writeDid (did : ℤ) (value : DidValue)
  | requestDownload (args : DownloadArgs)
  | transferData (seq : ℤ) (data : Bytes)
  | transferExit (data : Option Bytes)
  | readDtcInformation (args : DtcArgs)
  | clearDiagnosticInformation (args : ClearArgs)

inductive Reply (Routine Dtc : Type) where
  | flag (b : Bool)
  | routine (r : Routine)
  | maxLength (n : ℕ)
  | done
  | parameterRecords (b : Bytes)
  | dtc (d : Dtc)

section All

variable {Routine Dtc : Type} (u : UdsUtils Routine Dtc)

def perform (timeout : ℚ) : Call → Uds (Reply Routine Dtc)
  | .ecuReset resetType => .flag <$> u.ecuReset resetType timeout
  | .routineControl args => .routine <$> u.routineControl args timeout
  | .testerPresent => .flag <$> u.testerPresent timeout
  | .writeDid did value => .flag <$> u.writeDid did value timeout
  | .requestDownload args => .maxLength <$> u.requestDownload args timeout
  | .transferData seq data => (fun _ => .done) <$> u.transferData seq data timeout
  | .transferExit data => .parameterRecords <$> u.transferExit data timeout
  | .readDtcInformation args => .dtc <$> u.readDtcInformation args timeout
  | .clearDiagnosticInformation args => .flag <$> u.clearDiagnosticInformation args timeout

/-- The request was made from the arguments, and the reply tells what the ECU echoed. -/
def Confirmed (request : Request) (response : RawUdsResponse) : Call → Reply Routine Dtc → Prop
  | .ecuReset resetType, .flag b => u.udsoncan.ecuReset.makeRequest resetType = .ok request ∧
      ∃ echo, u.udsoncan.ecuReset.interpretResponse response = .ok echo ∧
        (b = true ↔ echo = resetType)
  | .routineControl args, .routine r =>
      u.udsoncan.routineControl.makeRequest args = .ok request ∧
        u.udsoncan.routineControl.interpretResponse response = .ok r
  | .testerPresent, .flag b => u.udsoncan.testerPresent.makeRequest () = .ok request ∧
      ∃ echo, u.udsoncan.testerPresent.interpretResponse response = .ok echo ∧
        (b = true ↔ echo = 0)
  | .writeDid did value, .flag b => ∃ data, value.encode = .ok data ∧
      u.udsoncan.writeDataByIdentifier.makeRequest (did, data) = .ok request ∧
      ∃ echo, u.udsoncan.writeDataByIdentifier.interpretResponse response = .ok echo ∧
        (b = true ↔ echo = did)
  | .requestDownload args, .maxLength n =>
      u.udsoncan.requestDownload.makeRequest args = .ok request ∧
        u.udsoncan.requestDownload.interpretResponse response = .ok n
  | .transferData seq data, .done =>
      u.udsoncan.transferData.makeRequest (seq, data) = .ok request ∧
        u.udsoncan.transferData.interpretResponse response = .ok seq
  | .transferExit data, .parameterRecords b =>
      u.udsoncan.requestTransferExit.makeRequest data = .ok request ∧
        u.udsoncan.requestTransferExit.interpretResponse response = .ok b
  | .readDtcInformation args, .dtc d =>
      (u.udsoncan.readDtcInformation args).makeRequest () = .ok request ∧
        (u.udsoncan.readDtcInformation args).interpretResponse response = .ok d
  | .clearDiagnosticInformation args, .flag b => b = true ∧
      u.udsoncan.clearDiagnosticInformation.makeRequest args = .ok request ∧
        u.udsoncan.clearDiagnosticInformation.interpretResponse response = .ok ()
  | _, _ => False

variable (log : List Exchanged) (timeout : ℚ)

def Failed (_ : ServiceError) (t : List Exchanged) : Prop := t = log ∨ ∃ x, t = log ++ [x]

theorem call_done {α β : Type} (service : Service α β) (args : α) :
    Ensures (· = log) (u.call service args timeout) (Done u log service args) (Failed log) :=
  ensures_weaken (call_answered u log service args timeout) (fun _ h => h) (fun _ _ h => h)
    fun _ _ h => h.imp_right fun ⟨x, hx, _⟩ => ⟨x, hx⟩

theorem map_call {α β : Type} (service : Service α β) (args : α) (f : β → Reply Routine Dtc) :
    Ensures (· = log) (f <$> u.call service args timeout)
      (fun reply t => ∃ b, reply = f b ∧ Done u log service args b t) (Failed log) :=
  ensures_bind (call_done u log timeout service args) fun b =>
    ensures_pure fun _ h => ⟨b, rfl, h⟩

theorem flag_call {α : Type} (service : Service α ℤ) (args : α) (expected : ℤ) :
    Ensures (· = log)
      ((.flag : Bool → Reply Routine Dtc) <$> (do
        let echo ← u.call service args timeout
        return echo == expected))
      (fun reply t => ∃ echo, reply = .flag (echo == expected) ∧ Done u log service args echo t)
      (Failed log) :=
  ensures_bind (Q := fun b t => ∃ echo, b = (echo == expected) ∧ Done u log service args echo t)
    (ensures_bind (call_done u log timeout service args) fun echo =>
      ensures_pure fun _ h => ⟨echo, rfl, h⟩)
    fun _ => ensures_pure fun _ ⟨echo, hb, h⟩ => ⟨echo, congrArg _ hb, h⟩

theorem transferData_call (seq : ℤ) (data : Bytes) :
    Ensures (· = log)
      ((fun _ => (.done : Reply Routine Dtc)) <$> u.transferData seq data timeout)
      (fun reply t => reply = .done ∧ Done u log u.udsoncan.transferData (seq, data) seq t)
      (Failed log) := by
  refine ensures_bind (Q := fun _ t => Done u log u.udsoncan.transferData (seq, data) seq t)
    (ensures_bind (call_done u log timeout u.udsoncan.transferData (seq, data)) fun respSeq => ?_)
    fun _ => ensures_pure fun _ h => ⟨rfl, h⟩
  refine ensures_ite (fun _ => ensures_raise fun t h => ?_) fun hseq => ensures_pure fun t h => ?_
  · obtain ⟨x, response, ht, -⟩ := h
    exact .inr ⟨x, ht⟩
  · rw [not_not.mp hseq] at h
    exact h

/-- Over every link: a service that returns has made one exchange, in which the ECU
answered its request positively, and it reports what the ECU echoed. One that raises has
made at most one. -/
theorem service_confirmed (call : Call) :
    Ensures (· = log) (perform u timeout call)
      (fun reply t => ∃ x response, t = log ++ [x] ∧ Answered u x response ∧
        Confirmed u x.request response call reply)
      (Failed log) := by
  cases call with
  | ecuReset resetType =>
    refine ensures_weaken (flag_call u log timeout u.udsoncan.ecuReset resetType resetType)
      (fun _ h => h) ?_ fun _ _ h => h
    rintro _ t ⟨echo, rfl, x, response, ht, hx, hmake, hinterpret⟩
    exact ⟨x, response, ht, hx, hmake, echo, hinterpret, beq_iff_eq⟩
  | routineControl args =>
    refine ensures_weaken (map_call u log timeout u.udsoncan.routineControl args .routine)
      (fun _ h => h) ?_ fun _ _ h => h
    rintro _ t ⟨r, rfl, x, response, ht, hx, h⟩
    exact ⟨x, response, ht, hx, h⟩
  | testerPresent =>
    refine ensures_weaken (flag_call u log timeout u.udsoncan.testerPresent () 0)
      (fun _ h => h) ?_ fun _ _ h => h
    rintro _ t ⟨echo, rfl, x, response, ht, hx, hmake, hinterpret⟩
    exact ⟨x, response, ht, hx, hmake, echo, hinterpret, beq_iff_eq⟩
  | writeDid did value =>
    rw [perform, UdsUtils.writeDid]
    cases hencode : value.encode with
    | error e =>
      intro s hs
      exact .inl hs
    | ok data =>
      refine ensures_weaken
        (flag_call u log timeout u.udsoncan.writeDataByIdentifier (did, data) did)
        (fun _ h => h) ?_ fun _ _ h => h
      rintro _ t ⟨echo, rfl, x, response, ht, hx, hmake, hinterpret⟩
      exact ⟨x, response, ht, hx, data, hencode, hmake, echo, hinterpret, beq_iff_eq⟩
  | requestDownload args =>
    refine ensures_weaken (map_call u log timeout u.udsoncan.requestDownload args .maxLength)
      (fun _ h => h) ?_ fun _ _ h => h
    rintro _ t ⟨n, rfl, x, response, ht, hx, h⟩
    exact ⟨x, response, ht, hx, h⟩
  | transferData seq data =>
    refine ensures_weaken (transferData_call u log timeout seq data) (fun _ h => h) ?_
      fun _ _ h => h
    rintro _ t ⟨rfl, x, response, ht, hx, h⟩
    exact ⟨x, response, ht, hx, h⟩
  | transferExit data =>
    refine ensures_weaken
      (map_call u log timeout u.udsoncan.requestTransferExit data .parameterRecords)
      (fun _ h => h) ?_ fun _ _ h => h
    rintro _ t ⟨b, rfl, x, response, ht, hx, h⟩
    exact ⟨x, response, ht, hx, h⟩
  | readDtcInformation args =>
    refine ensures_weaken (map_call u log timeout (u.udsoncan.readDtcInformation args) () .dtc)
      (fun _ h => h) ?_ fun _ _ h => h
    rintro _ t ⟨d, rfl, x, response, ht, hx, h⟩
    exact ⟨x, response, ht, hx, h⟩
  | clearDiagnosticInformation args =>
    have hcall := call_done u log timeout u.udsoncan.clearDiagnosticInformation args
    refine ensures_bind (ensures_bind hcall fun _ => ?_) fun _ => ensures_pure fun _ h => h
    rintro t ⟨x, response, ht, hx, h⟩
    exact ⟨x, response, ht, hx, rfl, h⟩

end All

end InVehicle.UdsServices
