import InVehicle.DoipConnections
import InVehicle.UdsTraffic

/-!
# The UDS exchange over DoIP

`UdsUtils._send_and_read_raw_response` with a `DoipCommunicator` below it. A call of
the communicator is given what the operating system answers in it, and may raise. A send
reads the acknowledgement of DoIP before it returns, also behind a frame that was cut. The
answers never run out, so that the receive loop may go on for ever.
-/

set_option autoImplicit false

namespace InVehicle.UdsDoip
open InVehicle.Effect InVehicle.DoipMessages InVehicle.TcpSocket InVehicle.DoipSession
open InVehicle.DoipConnections (Connected Live initiateRoutingActivationReqBound_connected)
open InVehicle.UdsExchange (RawUdsResponse Request UdsError Locals isPending isoFromPayload
  defaultUdsPendingTimeout)
open InVehicle.UdsTraffic (conclude)

inductive Raised where
  | uds (e : UdsError)
  | py (e : PyError)
  deriving DecidableEq, Repr

abbrev Result := Except Raised RawUdsResponse

/-- A pass of the receive loop: the clock at its top, what `recv` meets, and the
clock that restarts the deadline. -/
structure Pass where
  now : ℚ
  env : Env
  restart : ℚ

structure Attempt where
  env : Env
  start : ℚ
  passes : ℕ → Pass

inductive Act where
  | sent
  | received (reply : Except PyError Bytes)
  deriving DecidableEq

inductive Exit where
  | done (o : Result)
  | left (l : Locals)

variable {Msg : Type} (c : DoipClient Msg) (d : DoipCommunicator)

def frame (payload : Bytes) : Bytes :=
  c.packDoip protocolVersion
    (c.diagnosticMessage d.clientLogicalAddress d.targetLogicalAddress payload)

/-- The lines of `send` before `send_uds_request`. -/
def prepare (timeout : ℚ) (env : Env) : Tcp Msg Bool := do
  let reconnected ← DoipCommunicator.reconnectTcpIfNeeded env
  if reconnected then d.initiateRoutingActivationIfNeeded c timeout env else return true

variable (fromPayload : Bytes → RawUdsResponse)

def cons (a : Act) (x : Exit × List Act × World Msg) :
    Exit × List Act × World Msg := (x.1, a :: x.2.1, x.2.2)

/-- The `while True` loop of one attempt, if it is over after `fuel` passes. -/
def receive (req : Request) : ℕ → Locals → ℚ → (ℕ → Pass) → World Msg →
    Option (Exit × List Act × World Msg)
  | 0, _, _, _, _ => none
  | fuel+1, l, start, passes, w =>
    if (passes 0).now - start > l.timeout then some (.left l, [], w)
    else match d.recv c l.timeout (passes 0).env w with
    | (.error e, t) => some (.done (.error (.py e)), [.received (.error e)], t)
    | (.ok b, t) => Option.map (cons (.received (.ok b))) <|
      if b = [] then some (.left { l with rawResponse := [] }, [], t)
      else
        let response := fromPayload b
        if !response.valid then
          some (.done (.error (.uds (.invalidResponse response.invalidReason))), [], t)
        else if response.responseId ≠ req.responseId then
          receive req fuel { l with rawResponse := [], response := some response } start
            (fun n => passes (n + 1)) t
        else if isPending response then
          receive req fuel ⟨defaultUdsPendingTimeout, b, some response⟩ (passes 0).restart
            (fun n => passes (n + 1)) t
        else some (.done (.ok response), [], t)

/-- The acts `before` come before those of `x`. -/
def prepend (before : List Act) (x : Result × List Act × World Msg) :
    Result × List Act × World Msg := (x.1, before ++ x.2.1, x.2.2)

/-- The `for` loop over the attempts and the lines after it, if no attempt takes more than
`fuel` passes. -/
def attemptLoop (fuel : ℕ) (req : Request) : Locals → List Attempt → World Msg →
    Option (Result × List Act × World Msg)
  | l, [], w => some ((conclude l).mapError .uds, [], w)
  | l, a :: as, w =>
    match d.send c req.payload l.timeout a.env w with
    | (.error e, t) => some (.error (.py e), [.sent], t)
    | (.ok sentBytes, t) =>
      if sentBytes < req.payload.length then
        some (.error (.uds (.runtimeError "Failed to send request")), [.sent], t)
      else match receive c d fromPayload req fuel l a.start a.passes t with
      | none => none
      | some (.done o, acts, t) => some (o, .sent :: acts, t)
      | some (.left l', acts, t) => (attemptLoop fuel req l' as t).map (prepend (.sent :: acts))

def sendAndReadRawResponse (fuel : ℕ) (req : Request) (attempts : ℕ) (timeout : ℚ)
    (history : ℕ → Attempt) (w : World Msg) : Option (Result × List Act × World Msg) :=
  attemptLoop c d fromPayload fuel req ⟨timeout, [], none⟩ ((List.range attempts).map history) w

/-! ## What `send` returns -/

theorem send_prepare (payload : Bytes) (timeout : ℚ) (env : Env) (w : World Msg) :
    d.send c payload timeout env w = (prepare c d timeout env >>= fun ready =>
      if ready then sendUdsRequest c payload d.clientLogicalAddress d.targetLogicalAddress
        timeout env.request else return 0) w := by
  rcases hr : DoipCommunicator.reconnectTcpIfNeeded env w with ⟨e | reconnected, t⟩
  · have hprepare : prepare c d timeout env w = (.error e, t) := bind_error hr
    rw [DoipCommunicator.send, bind_error hr, bind_error hprepare]
  cases reconnected with
  | false =>
    have hprepare : prepare c d timeout env w = (.ok true, t) := bind_ok hr
    rw [DoipCommunicator.send, bind_ok hr, bind_ok hprepare]
    rfl
  | true =>
    have hprepare : prepare c d timeout env w =
        d.initiateRoutingActivationIfNeeded c timeout env t := bind_ok hr
    rw [DoipCommunicator.send, bind_ok hr, if_pos rfl]
    rcases ha : d.initiateRoutingActivationIfNeeded c timeout env t with ⟨e | activated, u⟩
    · rw [ha] at hprepare
      rw [bind_error ha, bind_error hprepare]
    · rw [ha] at hprepare
      rw [bind_ok ha, bind_ok hprepare]
      cases activated <;> rfl

theorem reconnect_live (env : Env) :
    Ensures (fun _ => True) (DoipCommunicator.reconnectTcpIfNeeded env : Tcp Msg Bool)
      (fun _ w => Live w) (fun _ _ => True) := by
  refine ensures_bind (Q := fun a w => a = w) (fun _ _ => rfl) fun a =>
    ensures_ite (fun _ => ?_) fun hopen => ensures_pure ?_
  · have hclose : Ensures (fun w => a = w) (tcpClose env.closing : Tcp Msg Bool)
        (fun _ _ => True) (fun _ _ => True) := by
      intro w _
      split <;> trivial
    have hopening : Ensures (fun _ => True) (tcpOpen env.opening : Tcp Msg Bool)
        (fun _ _ => True) (fun _ _ => True) := by
      intro w _
      split <;> trivial
    have hconnect : Ensures (fun _ => True) (tcpConnect env.opening : Tcp Msg Bool)
        (fun _ w => Live w) (fun _ _ => True) := by
      intro w _
      rw [tcpConnect]
      cases w.socket with
      | none => trivial
      | some k =>
        by_cases hk : k.phase = .bound ∧ env.opening.connect = true
        · simp only [if_pos hk]
          exact ⟨k.conn, env.opening.reads, rfl⟩
        · simp only [if_neg hk]
    exact ensures_bind hclose fun _ => ensures_bind hopening fun _ =>
      ensures_bind hconnect fun _ => ensures_pure fun _ h => h
  · rintro w rfl
    simp only [Bool.not_eq_true', Bool.not_eq_false] at hopen
    exact tcpIsOpen_connected env.peek a hopen

theorem prepare_live (timeout : ℚ) (env : Env) :
    Ensures (fun _ => True) (prepare c d timeout env) (fun ready w => ready = true → Live w)
      (fun _ _ => True) := by
  refine ensures_bind (reconnect_live env) fun reconnected =>
    ensures_ite (fun _ => ?_) fun _ => ensures_pure fun _ h _ => h
  refine ensures_ite (fun _ => ?_) fun _ => ensures_pure fun _ h _ => h
  have hbound : Ensures Live (DoipSession.initiateRoutingActivationReqBound c
      d.clientLogicalAddress timeout env.activation env.unsent)
      (fun o w => ∀ m, o = some m → Live w) (fun _ _ => True) := by
    rintro w ⟨conn, hconn⟩
    exact ensures_weaken (A := fun v => Connected conn v ∧ v.log = w.log)
      (initiateRoutingActivationReqBound_connected c
        ⟨d.clientLogicalAddress, timeout, activationTypeDefault, protocolVersion⟩
        ⟨env.activation, env.unsent⟩)
      (fun _ h => h) (fun _ _ h m hm => ⟨conn, (h.2 m hm).2.1⟩) (fun _ _ _ => trivial)
      w ⟨hconn, rfl⟩
  refine ensures_bind hbound fun resp => ?_
  cases resp with
  | none => exact ensures_pure fun _ _ h => (by cases h)
  | some m => exact ensures_pure fun _ h _ => h m rfl

/-- The bytes that the socket takes of a frame. A socket error counts as none. -/
def taken (frameLength : ℕ) (env : Env) : ℕ := min (env.request.accepted.getD 0) frameLength

theorem tcpSend_taken (data : Bytes) (env : Env) {w : World Msg} (hlive : Live w) :
    ∃ t, tcpSend data env.request.accepted w = (.ok (taken data.length env), t) ∧
      t.socket = w.socket := by
  obtain ⟨conn, reads, hsocket⟩ := hlive
  rw [taken]
  cases env.request.accepted with
  | none => exact ⟨w, by simp [tcpSend, hsocket], rfl⟩
  | some n => exact ⟨_, tcpSend_connected data n conn reads w hsocket, rfl⟩

theorem readDoip_socket (timeout : ℚ) (clock : ℕ → ℚ) {w t : World Msg}
    (h : t.socket = w.socket) :
    (readDoip c timeout clock t).1 = (readDoip c timeout clock w).1 := by
  rw [readDoip, readDoip, h]
  rcases w.socket with _ | ⟨conn, phase, reads⟩
  · simp only [readIdle]
    split_ifs <;> rfl
  cases phase with
  | bound =>
    simp only [readIdle]
    split_ifs <;> rfl
  | closed =>
    simp only [readIdle]
    split_ifs <;> rfl
  | connected =>
    dsimp only
    rcases DoipReader.readDoip c timeout clock reads with ⟨e | _ | m, rest⟩ <;> rfl

/-- A frame that is handed over decides the call: the reading of the acknowledgement
may raise, and otherwise the number of bytes taken is returned. -/
theorem send_taken (payload : Bytes) {timeout : ℚ} {env : Env} {w t : World Msg}
    (h : prepare c d timeout env w = (.ok true, t)) :
    (d.send c payload timeout env w).1 =
      (readDoip c timeout env.request.clock t).1.map
        fun _ => taken (frame c d payload).length env := by
  have hlive := prepare_live c d timeout env w trivial
  rw [h] at hlive
  obtain ⟨u, hsend, hsocket⟩ := tcpSend_taken (frame c d payload) env (hlive rfl)
  rw [send_prepare, bind_ok h, if_pos rfl, sendUdsRequest]
  change ((tcpSend (frame c d payload) env.request.accepted >>= _) t).1 = _
  rw [bind_ok hsend, ← readDoip_socket c timeout env.request.clock hsocket]
  rcases hr : readDoip c timeout env.request.clock u with ⟨e | r, v⟩
  · rw [bind_error hr]
    rfl
  · rw [bind_ok hr]
    rfl

/-! ## The attempts that the call comes to -/

def goOn (fuel : ℕ) (req : Request) (a : Attempt) (l : Locals) (w : World Msg) :
    Option (Locals × World Msg) :=
  match d.send c req.payload l.timeout a.env w with
  | (.error _, _) => none
  | (.ok sentBytes, t) =>
    if sentBytes < req.payload.length then none
    else match receive c d fromPayload req fuel l a.start a.passes t with
    | some (.left l', _, t) => some (l', t)
    | _ => none

def inFront (fuel : ℕ) (req : Request) (timeout : ℚ) (history : ℕ → Attempt) (w : World Msg) :
    ℕ → Option (Locals × World Msg)
  | 0 => some (⟨timeout, [], none⟩, w)
  | i+1 => (inFront fuel req timeout history w i).bind fun s =>
    goOn c d fromPayload fuel req (history i) s.1 s.2

/-- The call comes to this attempt with this timeout, and its frame is handed to the
socket of the connection `t`. -/
def HandsOver (req : Request) (timeout : ℚ) (history : ℕ → Attempt) (w : World Msg) (i : ℕ)
    (now : ℚ) (t : World Msg) : Prop :=
  ∃ fuel l u, inFront c d fromPayload fuel req timeout history w i = some (l, u) ∧
    l.timeout = now ∧ prepare c d now (history i).env u = (.ok true, t)

def failedToSend : Result := .error (.uds (.runtimeError "Failed to send request"))

/-- The send of this attempt is the last act of the call, which reports that it failed. -/
def EndsAt (i : ℕ) (x : Result × List Act × World Msg) : Prop :=
  x.1 = failedToSend ∧ x.2.1.getLast? = some .sent ∧ x.2.1.count .sent = i + 1

/-- Of the frames that are handed over, exactly those that are cut short are reported
at once. -/
def Reported (req : Request) (attempts : ℕ) (timeout : ℚ) (history : ℕ → Attempt)
    (w : World Msg) : Prop :=
  ∀ i < attempts, ∀ now t, HandsOver c d fromPayload req timeout history w i now t →
    ((∃ fuel x, sendAndReadRawResponse c d fromPayload fuel req attempts timeout history w =
        some x ∧ EndsAt i x) ↔
      taken (frame c d req.payload).length (history i).env < (frame c d req.payload).length)

/-- The number of bytes taken is not between the length of the payload and that of the
frame, and where the reading of the acknowledgement raises, all of it was taken. -/
def Shown (payloadLength n : ℕ) : Except PyError (Option Msg) → Prop
  | .ok _ => n < payloadLength ∨ payloadLength + 12 ≤ n
  | .error _ => payloadLength + 12 ≤ n

def AllShown (req : Request) (attempts : ℕ) (timeout : ℚ) (history : ℕ → Attempt)
    (w : World Msg) : Prop :=
  ∀ i < attempts, ∀ now t, HandsOver c d fromPayload req timeout history w i now t →
    Shown req.payload.length (taken (frame c d req.payload).length (history i).env)
      (readDoip c now (history i).env.request.clock t).1

theorem receive_acts {req : Request} {fuel : ℕ} {l : Locals} {start : ℚ} {passes : ℕ → Pass}
    {w : World Msg} {x : Exit × List Act × World Msg}
    (h : receive c d fromPayload req fuel l start passes w = some x) :
    (∀ a ∈ x.2.1, ∃ reply, a = .received reply) ∧ x.1 ≠ .done failedToSend := by
  induction fuel generalizing l start passes w x with
  | zero => cases h
  | succ fuel ih =>
    rw [receive] at h
    by_cases hl : (passes 0).now - start > l.timeout
    · rw [if_pos hl] at h
      cases h
      simp
    rw [if_neg hl] at h
    match hrecv : d.recv c l.timeout (passes 0).env w with
    | (.error e, t) =>
      rw [hrecv] at h
      cases h
      simp [failedToSend]
    | (.ok b, t) =>
      rw [hrecv] at h
      obtain ⟨y, hy, rfl⟩ := Option.map_eq_some_iff.mp h
      have hrest : (∀ a ∈ y.2.1, ∃ reply, a = .received reply) ∧ y.1 ≠ .done failedToSend := by
        dsimp only at hy
        split_ifs at hy
        · cases hy
          simp
        · cases hy
          simp [failedToSend]
        · exact ih hy
        · exact ih hy
        · cases hy
          simp [failedToSend]
      exact ⟨List.forall_mem_cons.mpr ⟨⟨_, rfl⟩, hrest.1⟩, hrest.2⟩

theorem count_received {acts : List Act} (h : ∀ a ∈ acts, ∃ reply, a = .received reply) :
    acts.count .sent = 0 := by
  refine List.count_eq_zero.mpr fun hmem => ?_
  obtain ⟨reply, hreply⟩ := h _ hmem
  cases hreply

theorem conclude_ne (l : Locals) : (conclude l).mapError Raised.uds ≠ failedToSend := by
  rw [conclude]
  split_ifs
  · simp [failedToSend, Except.mapError]
  · cases l.response <;> simp [failedToSend, Except.mapError]

/-! ## More passes -/

section More
variable {c d} {fromPayload} {req : Request} {fuel fuel' : ℕ} {l l' : Locals} {start : ℚ}
  {passes : ℕ → Pass} {w t : World Msg} {a : Attempt} {as : List Attempt}

theorem receive_mono {x : Exit × List Act × World Msg} (hle : fuel ≤ fuel')
    (h : receive c d fromPayload req fuel l start passes w = some x) :
    receive c d fromPayload req fuel' l start passes w = some x := by
  induction fuel generalizing fuel' l start passes w x with
  | zero => cases h
  | succ fuel ih =>
    obtain ⟨more, rfl⟩ := Nat.exists_eq_add_of_le hle
    have hle' : fuel ≤ fuel + more := Nat.le_add_right fuel more
    rw [Nat.add_right_comm]
    rw [receive] at h ⊢
    by_cases hl : (passes 0).now - start > l.timeout
    · rwa [if_pos hl] at h ⊢
    rw [if_neg hl] at h ⊢
    match hrecv : d.recv c l.timeout (passes 0).env w with
    | (.error e, t) => rwa [hrecv] at h
    | (.ok b, t) =>
      rw [hrecv] at h
      obtain ⟨y, hy, rfl⟩ := Option.map_eq_some_iff.mp h
      refine Option.map_eq_some_iff.mpr ⟨y, ?_, rfl⟩
      dsimp only at hy ⊢
      split_ifs at hy ⊢
      · exact hy
      · exact hy
      · exact ih hle' hy
      · exact ih hle' hy
      · exact hy

theorem attemptLoop_mono {x : Result × List Act × World Msg} (hle : fuel ≤ fuel')
    (h : attemptLoop c d fromPayload fuel req l as w = some x) :
    attemptLoop c d fromPayload fuel' req l as w = some x := by
  induction as generalizing l w x with
  | nil => exact h
  | cons a as ih =>
    rw [attemptLoop] at h ⊢
    match hsend : d.send c req.payload l.timeout a.env w with
    | (.error e, t) => rwa [hsend] at h
    | (.ok sentBytes, t) =>
      rw [hsend] at h
      dsimp only at h ⊢
      by_cases hs : sentBytes < req.payload.length
      · rwa [if_pos hs] at h ⊢
      rw [if_neg hs] at h ⊢
      cases hr : receive c d fromPayload req fuel l a.start a.passes t with
      | none => simp [hr] at h
      | some r =>
        rw [receive_mono hle hr]
        rw [hr] at h
        obtain ⟨o | l', acts, u⟩ := r
        · exact h
        · obtain ⟨y, hy, rfl⟩ := Option.map_eq_some_iff.mp h
          exact Option.map_eq_some_iff.mpr ⟨y, ih hy, rfl⟩

theorem goOn_mono {s : Locals × World Msg} (hle : fuel ≤ fuel')
    (h : goOn c d fromPayload fuel req a l w = some s) :
    goOn c d fromPayload fuel' req a l w = some s := by
  rw [goOn] at h ⊢
  match hsend : d.send c req.payload l.timeout a.env w with
  | (.error e, t) => simp [hsend] at h
  | (.ok sentBytes, t) =>
    rw [hsend] at h
    dsimp only at h ⊢
    by_cases hs : sentBytes < req.payload.length
    · rw [if_pos hs] at h
      cases h
    rw [if_neg hs] at h ⊢
    cases hr : receive c d fromPayload req fuel l a.start a.passes t with
    | none => simp [hr] at h
    | some r =>
      rw [receive_mono hle hr]
      rwa [hr] at h

theorem inFront_mono {timeout : ℚ} {history : ℕ → Attempt} {i : ℕ} {s : Locals × World Msg}
    (hle : fuel ≤ fuel') (h : inFront c d fromPayload fuel req timeout history w i = some s) :
    inFront c d fromPayload fuel' req timeout history w i = some s := by
  induction i generalizing s with
  | zero => exact h
  | succ i ih =>
    obtain ⟨s₀, hfront, hgo⟩ := Option.bind_eq_some_iff.mp h
    exact Option.bind_eq_some_iff.mpr ⟨s₀, ih hfront, goOn_mono hle hgo⟩

end More

section Heads
variable {c d} {fromPayload} {req : Request} {fuel : ℕ} {l l' : Locals} {w t : World Msg}
  {a : Attempt} {as : List Attempt}

theorem attemptLoop_head {x : Result × List Act × World Msg}
    (h : attemptLoop c d fromPayload fuel req l (a :: as) w = some x) :
    ∃ acts, x.2.1 = .sent :: acts := by
  rw [attemptLoop] at h
  match hsend : d.send c req.payload l.timeout a.env w with
  | (.error e, t) =>
    rw [hsend] at h
    cases h
    exact ⟨_, rfl⟩
  | (.ok sentBytes, t) =>
    rw [hsend] at h
    dsimp only at h
    by_cases hs : sentBytes < req.payload.length
    · rw [if_pos hs] at h
      cases h
      exact ⟨_, rfl⟩
    rw [if_neg hs] at h
    match hreceive : receive c d fromPayload req fuel l a.start a.passes t with
    | none => simp [hreceive] at h
    | some (.done o, acts, u) =>
      rw [hreceive] at h
      cases h
      exact ⟨_, rfl⟩
    | some (.left l', acts, u) =>
      rw [hreceive] at h
      obtain ⟨y, -, rfl⟩ := Option.map_eq_some_iff.mp h
      exact ⟨_, rfl⟩

theorem attemptLoop_goOn (h : goOn c d fromPayload fuel req a l w = some (l', t)) :
    ∃ received, received.count .sent = 0 ∧ attemptLoop c d fromPayload fuel req l (a :: as) w =
      (attemptLoop c d fromPayload fuel req l' as t).map (prepend (.sent :: received)) := by
  rw [goOn] at h
  rw [attemptLoop]
  match hsend : d.send c req.payload l.timeout a.env w with
  | (.error e, u) => simp [hsend] at h
  | (.ok sentBytes, u) =>
    rw [hsend] at h
    dsimp only at h ⊢
    by_cases hs : sentBytes < req.payload.length
    · rw [if_pos hs] at h
      cases h
    rw [if_neg hs] at h ⊢
    match hreceive : receive c d fromPayload req fuel l a.start a.passes u with
    | none => simp [hreceive] at h
    | some (.done o, acts, v) => simp [hreceive] at h
    | some (.left l₁, acts, v) =>
      have hacts := (receive_acts c d fromPayload hreceive).1
      rw [hreceive] at h
      cases h
      exact ⟨acts, count_received hacts, rfl⟩

theorem attemptLoop_endsAt :
    (∃ x, attemptLoop c d fromPayload fuel req l (a :: as) w = some x ∧ EndsAt 0 x) ↔
      ∃ n < req.payload.length, (d.send c req.payload l.timeout a.env w).1 = .ok n := by
  rw [attemptLoop]
  match hsend : d.send c req.payload l.timeout a.env w with
  | (.error e, u) =>
    refine iff_of_false ?_ ?_
    · rintro ⟨x, hx, h⟩
      cases hx
      cases h.1
    · rintro ⟨n, -, hn⟩
      cases hn
  | (.ok sentBytes, u) =>
    dsimp only
    by_cases hs : sentBytes < req.payload.length
    · rw [if_pos hs]
      exact iff_of_true ⟨_, rfl, rfl, rfl, rfl⟩ ⟨sentBytes, hs, rfl⟩
    rw [if_neg hs]
    refine iff_of_false ?_ ?_
    · rintro ⟨x, hx, ho, -, hcount⟩
      match hreceive : receive c d fromPayload req fuel l a.start a.passes u with
      | none => simp [hreceive] at hx
      | some (.done o, acts, v) =>
        rw [hreceive] at hx
        cases hx
        exact (receive_acts c d fromPayload hreceive).2 (congrArg Exit.done ho)
      | some (.left l₁, acts, v) =>
        rw [hreceive] at hx
        obtain ⟨y, hy, rfl⟩ := Option.map_eq_some_iff.mp hx
        cases as with
        | nil =>
          cases hy
          exact conclude_ne l₁ ho
        | cons a' as =>
          obtain ⟨rest, hrest⟩ := attemptLoop_head hy
          simp only [prepend, hrest, List.count_append, List.count_cons_self,
            List.cons_append] at hcount
          omega
    · rintro ⟨n, hn, heq⟩
      cases heq
      exact hs hn

end Heads

section Calls
variable {c d} {fromPayload} {req : Request} {attempts fuel : ℕ} {timeout : ℚ}
  {history : ℕ → Attempt} {w : World Msg}

theorem attempts_drop {i : ℕ} (hi : i < attempts) :
    ((List.range attempts).map history).drop i =
      history i :: ((List.range attempts).map history).drop (i + 1) := by
  rw [List.drop_eq_getElem_cons (by simpa using hi)]
  simp

theorem inFront_run {i : ℕ} (hi : i ≤ attempts) {l : Locals} {t : World Msg}
    (h : inFront c d fromPayload fuel req timeout history w i = some (l, t)) :
    ∃ before, before.count .sent = i ∧
      sendAndReadRawResponse c d fromPayload fuel req attempts timeout history w =
        (attemptLoop c d fromPayload fuel req l (((List.range attempts).map history).drop i)
          t).map (prepend before) := by
  induction i generalizing l t with
  | zero =>
    cases h
    refine ⟨[], rfl, ?_⟩
    change _ = Option.map id _
    rw [Option.map_id]
    rfl
  | succ i ih =>
    obtain ⟨⟨l₀, t₀⟩, hfront, hgo⟩ := Option.bind_eq_some_iff.mp h
    obtain ⟨before, hcount, hrun⟩ := ih (Nat.le_of_succ_le hi) hfront
    rw [attempts_drop hi] at hrun
    obtain ⟨received, hreceived, hloop⟩ : ∃ received : List Act, received.count .sent = 0 ∧
        attemptLoop c d fromPayload fuel req l₀ (history i ::
            ((List.range attempts).map history).drop (i + 1)) t₀ =
          (attemptLoop c d fromPayload fuel req l
            (((List.range attempts).map history).drop (i + 1)) t).map
            (prepend (.sent :: received)) := attemptLoop_goOn hgo
    refine ⟨before ++ .sent :: received, ?_, ?_⟩
    · rw [List.count_append, List.count_cons_self, hcount, hreceived]
    · rw [hrun, hloop, Option.map_map]
      refine congrArg (Option.map · _) (funext fun x => ?_)
      simp only [prepend, Function.comp_apply, List.append_assoc, List.cons_append]

theorem endsAt_iff {i : ℕ} (hi : i < attempts) {l : Locals} {t : World Msg}
    (h : inFront c d fromPayload fuel req timeout history w i = some (l, t)) :
    (∃ fuel x, sendAndReadRawResponse c d fromPayload fuel req attempts timeout history w =
        some x ∧ EndsAt i x) ↔
      ∃ n < req.payload.length,
        (d.send c req.payload l.timeout (history i).env t).1 = .ok n := by
  have hshift {k : ℕ} {before : List Act} (hcount : before.count .sent = i)
      {y : Result × List Act × World Msg}
      (hy : attemptLoop c d fromPayload k req l
        (history i :: ((List.range attempts).map history).drop (i + 1)) t = some y) :
      EndsAt i (prepend before y) ↔ EndsAt 0 y := by
    obtain ⟨acts, hacts⟩ := attemptLoop_head hy
    have hlast : (before ++ .sent :: acts).getLast? = (Act.sent :: acts).getLast? := by
      rw [List.getLast?_append_of_ne_nil _ (List.cons_ne_nil _ _)]
    have hsent : (before ++ .sent :: acts).count .sent = i + 1 ↔
        (Act.sent :: acts).count .sent = 0 + 1 := by
      rw [List.count_append, hcount]
      omega
    rw [EndsAt, EndsAt, prepend, hacts, hlast, hsent]
  constructor
  · rintro ⟨fuel', x, hx, hends⟩
    obtain ⟨before, hcount, hrun⟩ :=
      inFront_run hi.le (inFront_mono (Nat.le_max_left fuel fuel') h)
    rw [attempts_drop hi] at hrun
    obtain ⟨y, hy, rfl⟩ := Option.map_eq_some_iff.mp
      (hrun.symm.trans (attemptLoop_mono (Nat.le_max_right fuel fuel') hx))
    exact attemptLoop_endsAt.mp ⟨y, hy, (hshift hcount hy).mp hends⟩
  · intro hshort
    obtain ⟨before, hcount, hrun⟩ := inFront_run hi.le h
    rw [attempts_drop hi] at hrun
    obtain ⟨y, hy, hends⟩ : ∃ y, attemptLoop c d fromPayload fuel req l
        (history i :: ((List.range attempts).map history).drop (i + 1)) t = some y ∧ EndsAt 0 y :=
      attemptLoop_endsAt.mpr hshort
    exact ⟨fuel, prepend before y, hrun.trans (Option.map_eq_some_iff.mpr ⟨y, hy, rfl⟩),
      (hshift hcount hy).mpr hends⟩

/-- doipclient puts eight bytes of header and the two addresses in front of a payload. -/
def Framed (c : DoipClient Msg) : Prop :=
  ∀ version source target payload,
    (c.packDoip version (c.diagnosticMessage source target payload)).length = payload.length + 12

theorem reported_at (hframed : Framed c) {i : ℕ} (hi : i < attempts) {now : ℚ} {t : World Msg}
    (h : HandsOver c d fromPayload req timeout history w i now t) :
    ((∃ fuel x, sendAndReadRawResponse c d fromPayload fuel req attempts timeout history w =
        some x ∧ EndsAt i x) ↔
      taken (frame c d req.payload).length (history i).env < (frame c d req.payload).length) ↔
    Shown req.payload.length (taken (frame c d req.payload).length (history i).env)
      (readDoip c now (history i).env.request.clock t).1 := by
  obtain ⟨fuel, l, u, hfront, rfl, hprepare⟩ := h
  have hlength : (frame c d req.payload).length = req.payload.length + 12 := hframed _ _ _ _
  have hle : taken (frame c d req.payload).length (history i).env ≤
      (frame c d req.payload).length := Nat.min_le_right _ _
  rw [endsAt_iff hi hfront, send_taken c d _ hprepare]
  rw [hlength] at hle ⊢
  cases (readDoip c l.timeout (history i).env.request.clock t).1 with
  | error e =>
    simp only [Except.map, reduceCtorEq, and_false, exists_false, false_iff, Shown]
    omega
  | ok r =>
    simp only [Except.map, Except.ok.injEq, exists_eq_right', Shown]
    omega

end Calls

variable {c d} {fromPayload}

/-- A frame that is cut short is reported at once, and only such a frame is, exactly if
the number of bytes that are taken shows it in comparison with the payload. -/
theorem exchange_reported_iff (h : Framed c) (req : Request) (attempts : ℕ) (timeout : ℚ)
    (history : ℕ → Attempt) (w : World Msg) :
    Reported c d fromPayload req attempts timeout history w ↔
      AllShown c d fromPayload req attempts timeout history w :=
  forall₂_congr fun _ hi => forall₂_congr fun _ _ => forall_congr' fun hover =>
    reported_at h hi hover

theorem isoClient_framed : Framed isoClient := by
  intro version source target payload
  show (packMessage version _).length = _
  rw [packMessage_length]
  simp only [isoClient, List.length_append, Words.Digit.length_be]
  omega

/-- The system on a connection that takes `n` bytes of a frame, and on which nothing comes. -/
def quiet (n : ℕ) : Env :=
  ⟨.wouldBlock, ⟨.wouldBlock, true⟩, ⟨true, true, []⟩, ⟨some n, fun _ => 0⟩,
    ⟨.wouldBlock, true⟩, ⟨some n, fun _ => 0⟩⟩

def silentAfter (n : ℕ) : ℕ → Attempt := fun _ => ⟨quiet n, 0, fun _ => ⟨0, quiet n, 0⟩⟩

def tester : DoipCommunicator := ⟨0x0E00, 0x1000, true⟩

def readVin : Request := ⟨[0x22, 0xF1, 0x90], 0x62⟩

def connected : World Message := ⟨some ⟨0, .connected, []⟩, 1, []⟩

def silentRun (fuel n : ℕ) : Option (Result × List Act × World Message) :=
  sendAndReadRawResponse isoClient tester isoFromPayload fuel readVin 1 2 (silentAfter n) connected

theorem silentRun_handsOver (n : ℕ) :
    HandsOver isoClient tester isoFromPayload readVin 2 (silentAfter n) connected 0 2
      connected :=
  ⟨0, ⟨2, [], none⟩, connected, rfl, rfl, rfl⟩

theorem silentRun_acknowledged (n : ℕ) {now : ℚ} {t : World Message}
    (h : HandsOver isoClient tester isoFromPayload readVin 2 (silentAfter n) connected 0 now t) :
    (readDoip isoClient now ((silentAfter n) 0).env.request.clock t).1 = .ok none := by
  obtain ⟨fuel, l, u, hfront, rfl, hprepare⟩ := h
  cases hfront
  cases hprepare
  show (readDoip isoClient 2 (fun _ => 0) connected).1 = .ok none
  decide +kernel

/-- Two bytes of a frame are less than its payload. -/
theorem exchange_reported_two :
    taken (frame isoClient tester readVin.payload).length ((silentAfter 2) 0).env = 2 ∧
      (silentRun 1 2).map (fun x => x.2.1) = some [.sent] ∧
      ∃ fuel x, silentRun fuel 2 = some x ∧ EndsAt 0 x := by
  have hshown : AllShown isoClient tester isoFromPayload readVin 1 2 (silentAfter 2) connected := by
    intro i hi now t hover
    obtain rfl : i = 0 := by omega
    rw [silentRun_acknowledged 2 hover]
    exact .inl (by decide +kernel)
  have hreported := (exchange_reported_iff isoClient_framed readVin 1 2 (silentAfter 2)
    connected).mpr hshown
  refine ⟨by decide +kernel, by decide +kernel, ?_⟩
  exact (hreported 0 Nat.zero_lt_one 2 connected (silentRun_handsOver 2)).mpr (by decide +kernel)

/-- Five of the fifteen bytes of a frame are more than the three of its payload. -/
theorem cut_frame_awaited :
    taken (frame isoClient tester readVin.payload).length ((silentAfter 5) 0).env = 5 ∧
      (frame isoClient tester readVin.payload).length = 15 ∧
      (silentRun 1 5).map (fun x => x.2.1) = some [.sent, .received (.ok [])] ∧
      ¬ Reported isoClient tester isoFromPayload readVin 1 2 (silentAfter 5) connected := by
  have hacts : (silentRun 1 5).map (fun x => x.2.1) = some [.sent, .received (.ok [])] := by
    decide +kernel
  refine ⟨by decide +kernel, by decide +kernel, hacts, fun hreported => ?_⟩
  obtain ⟨fuel, x, hx, -, hlast, -⟩ :=
    (hreported 0 Nat.zero_lt_one 2 connected (silentRun_handsOver 5)).mpr (by decide +kernel)
  obtain ⟨y, hy, hacts⟩ := Option.map_eq_some_iff.mp hacts
  have hmax := attemptLoop_mono (Nat.le_max_left fuel 1) hx
  rw [attemptLoop_mono (Nat.le_max_right fuel 1) hy] at hmax
  cases hmax
  rw [hacts] at hlast
  cases hlast

end InVehicle.UdsDoip
