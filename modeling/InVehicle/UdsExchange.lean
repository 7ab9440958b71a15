import InVehicle.Basic
import Mathlib.Data.Rat.Defs
import Mathlib.Algebra.Order.Ring.Unbundled.Rat

/-!
# The UDS request and response exchange

`UdsUtils._send_and_read_raw_response` is run on the answers it gets from the
data link layer and from the clock. They are grouped the way the two loops ask
for them: one `Attempt` for each transmission and one `Turn` for each pass of
the receive loop. Past its last turn the link stays silent. The result is
returned together with the calls made on the data link layer, in order.
-/

set_option autoImplicit false

namespace InVehicle.UdsExchange

/-- The fields of udsoncan's `Response` that the exchange reads. -/
structure RawUdsResponse where
  valid : Bool
  invalidReason : String
  responseId : ℕ
  positive : Bool
  code : ℕ
  codeName : String
  data : Bytes
  deriving DecidableEq, Repr

structure Request where
  payload : Bytes
  responseId : ℕ
  deriving DecidableEq, Repr

inductive UdsError where
  | runtimeError (text : String)
  | invalidResponse (invalidReason : String)
  | negativeResponse (code : ℕ) (codeName : String)
  | noResponse
  | unboundLocalError
  deriving DecidableEq, Repr

abbrev Outcome := Except UdsError RawUdsResponse

def defaultUdsPendingTimeout : ℚ := 60

def responsePending : ℕ := 0x78

def isPending (r : RawUdsResponse) : Bool := !r.positive && r.code == responsePending

/-- `from_payload` on the positive and negative replies of ISO 14229, for
runs on concrete bytes. -/
def isoFromPayload : Bytes → RawUdsResponse
  | [0x7F, sid, code] => ⟨true, "", sid.toNat + 0x40, false, code.toNat, "", []⟩
  | [] => ⟨false, "Payload is empty", 0, false, 0, "", []⟩
  | b :: data => ⟨true, "", b.toNat, true, 0, "PositiveResponse", data⟩

/-- One pass of the receive loop: the clock reading at its top, the result of
`recv`, and the reading that restarts the deadline after a pending reply. -/
structure Turn where
  now : ℚ
  reply : Bytes
  restart : ℚ
  deriving DecidableEq, Repr

structure Attempt where
  sentBytes : ℕ
  start : ℚ
  turns : List Turn
  deriving DecidableEq, Repr

/-- A call on the data link layer: its arguments, then its result. -/
inductive Event where
  | send (data : Bytes) (timeout : ℚ) (sentBytes : ℕ)
  | recv (timeout : ℚ) (reply : Bytes)
  deriving DecidableEq, Repr

/-- The variables that live on from one attempt to the next. An unset
`raw_response` and an empty one are the same to the code. -/
structure Locals where
  timeout : ℚ
  rawResponse : Bytes
  response : Option RawUdsResponse

inductive Exit where
  | done (o : Outcome)
  | left (l : Locals)

/-- The calls `es` come before those of `x`. -/
def after {α : Type} (es : List Event) (x : α × List Event) : α × List Event := (x.1, es ++ x.2)

variable (fromPayload : Bytes → RawUdsResponse)

/-- The `while True` loop of one attempt. -/
def receive (req : Request) : Locals → ℚ → List Turn → Exit × List Event
  | l, _, [] => (.left { l with rawResponse := [] }, [.recv l.timeout []])
  | l, start, t :: ts =>
    if t.now - start > l.timeout then (.left l, [])
    else if t.reply = [] then
      (.left { l with rawResponse := [] }, [.recv l.timeout []])
    else
      let response := fromPayload t.reply
      if !response.valid then
        (.done (.error (.invalidResponse response.invalidReason)), [.recv l.timeout t.reply])
      else if response.responseId ≠ req.responseId then
        after [.recv l.timeout t.reply]
          (receive req { l with rawResponse := [], response := some response } start ts)
      else if isPending response then
        after [.recv l.timeout t.reply]
          (receive req ⟨defaultUdsPendingTimeout, t.reply, some response⟩ t.restart ts)
      else (.done (.ok response), [.recv l.timeout t.reply])

/-- The `for` loop over the attempts and the lines after it. -/
def attemptLoop (req : Request) : Locals → List Attempt → Outcome × List Event
  | l, [] =>
    if l.rawResponse = [] then (.error .noResponse, [])
    else match l.response with
      | some r => (.ok r, [])
      | none => (.error .unboundLocalError, [])
  | l, a :: as =>
    after [.send req.payload l.timeout a.sentBytes]
      (if a.sentBytes < req.payload.length then
        (.error (.runtimeError "Failed to send request"), [])
      else match receive fromPayload req l a.start a.turns with
        | (.done o, es) => (o, es)
        | (.left l', es) => after es (attemptLoop req l' as))

def sendAndReadRawResponse (req : Request) (attempts : ℕ) (timeout : ℚ)
    (history : ℕ → Attempt) : Outcome × List Event :=
  attemptLoop fromPayload req ⟨timeout, [], none⟩ ((List.range attempts).map history)

def sendAndReadResponse (req : Request) (attempts : ℕ) (timeout : ℚ)
    (history : ℕ → Attempt) : Outcome × List Event :=
  match sendAndReadRawResponse fromPayload req attempts timeout history with
  | (.ok r, es) =>
    if r.positive then (.ok r, es) else (.error (.negativeResponse r.code r.codeName), es)
  | (.error e, es) => (.error e, es)

/-! ## What one pass of the receive loop does -/

inductive Kind where
  | silence
  | invalid
  | foreign
  | pending
  | answer
  deriving DecidableEq, Repr

def kind (req : Request) (b : Bytes) : Kind :=
  if b = [] then .silence
  else if !(fromPayload b).valid then .invalid
  else if (fromPayload b).responseId ≠ req.responseId then .foreign
  else if isPending (fromPayload b) then .pending
  else .answer

theorem kind_pending (req : Request) (b : Bytes) (h : kind fromPayload req b = .pending) :
    b ≠ [] ∧ (fromPayload b).valid = true ∧ (fromPayload b).responseId = req.responseId ∧
      isPending (fromPayload b) = true := by
  unfold kind at h
  split_ifs at h with h1 h2 h3 h4
  exact ⟨h1, by simpa using h2, not_not.mp h3, h4⟩

theorem kind_answer (req : Request) (b : Bytes) (h : kind fromPayload req b = .answer) :
    b ≠ [] ∧ (fromPayload b).valid = true ∧ (fromPayload b).responseId = req.responseId ∧
      isPending (fromPayload b) = false := by
  unfold kind at h
  split_ifs at h with h1 h2 h3 h4
  exact ⟨h1, by simpa using h2, not_not.mp h3, by simpa using h4⟩

theorem receive_cons (req : Request) (l : Locals) (start : ℚ) (t : Turn) (ts : List Turn) :
    receive fromPayload req l start (t :: ts) =
      if t.now - start > l.timeout then (.left l, [])
      else match kind fromPayload req t.reply with
        | .silence => (.left { l with rawResponse := [] }, [.recv l.timeout []])
        | .invalid => (.done (.error (.invalidResponse (fromPayload t.reply).invalidReason)),
            [.recv l.timeout t.reply])
        | .foreign => after [.recv l.timeout t.reply] (receive fromPayload req
            { l with rawResponse := [], response := some (fromPayload t.reply) } start ts)
        | .pending => after [.recv l.timeout t.reply] (receive fromPayload req
            ⟨defaultUdsPendingTimeout, t.reply, some (fromPayload t.reply)⟩ t.restart ts)
        | .answer => (.done (.ok (fromPayload t.reply)), [.recv l.timeout t.reply]) := by
  simp only [receive, kind]
  split_ifs <;> rfl

theorem attemptLoop_short (req : Request) (l : Locals) (a : Attempt) (as : List Attempt)
    (h : a.sentBytes < req.payload.length) :
    attemptLoop fromPayload req l (a :: as) =
      (.error (.runtimeError "Failed to send request"),
        [.send req.payload l.timeout a.sentBytes]) := by
  rw [attemptLoop, if_pos h]
  rfl

theorem attemptLoop_done (req : Request) (l : Locals) (a : Attempt) (as : List Attempt)
    (o : Outcome) (es : List Event) (h : ¬ a.sentBytes < req.payload.length)
    (hr : receive fromPayload req l a.start a.turns = (.done o, es)) :
    attemptLoop fromPayload req l (a :: as) =
      (o, .send req.payload l.timeout a.sentBytes :: es) := by
  rw [attemptLoop, if_neg h, hr]
  rfl

theorem attemptLoop_left (req : Request) (l l' : Locals) (a : Attempt) (as : List Attempt)
    (es : List Event) (h : ¬ a.sentBytes < req.payload.length)
    (hr : receive fromPayload req l a.start a.turns = (.left l', es)) :
    attemptLoop fromPayload req l (a :: as) =
      after (.send req.payload l.timeout a.sentBytes :: es) (attemptLoop fromPayload req l' as) := by
  rw [attemptLoop, if_neg h, hr]
  rfl

/-! ## Attempts that end without an answer -/

/-- `raw_response` is non-empty: a pending reply is still held. -/
def Locals.held (l : Locals) : Bool := !l.rawResponse.isEmpty

/-- The turns of an attempt that leave it without a result. The numbers are
the timeout and the start in effect, the flag tells whether the last payload
taken was a pending reply; both are given before and after the turns. -/
inductive Left (req : Request) : ℚ → ℚ → Bool → List Turn → ℚ → Bool → Prop
  | over (timeout start : ℚ) (p : Bool) : Left req timeout start p [] timeout false
  | late {timeout start : ℚ} (p : Bool) {t : Turn} (ts : List Turn)
      (h : t.now - start > timeout) : Left req timeout start p (t :: ts) timeout p
  | silent {timeout start : ℚ} (p : Bool) {t : Turn} (ts : List Turn)
      (h : ¬ t.now - start > timeout) (hk : kind fromPayload req t.reply = .silence) :
      Left req timeout start p (t :: ts) timeout false
  | foreign {timeout start timeout' : ℚ} (p : Bool) {q : Bool} {t : Turn} {ts : List Turn}
      (h : ¬ t.now - start > timeout) (hk : kind fromPayload req t.reply = .foreign)
      (rest : Left req timeout start false ts timeout' q) :
      Left req timeout start p (t :: ts) timeout' q
  | pending {timeout start timeout' : ℚ} (p : Bool) {q : Bool} {t : Turn} {ts : List Turn}
      (h : ¬ t.now - start > timeout) (hk : kind fromPayload req t.reply = .pending)
      (rest : Left req defaultUdsPendingTimeout t.restart true ts timeout' q) :
      Left req timeout start p (t :: ts) timeout' q

theorem held_of_reply (req : Request) (T : ℚ) (b : Bytes) (r : Option RawUdsResponse)
    (h : kind fromPayload req b = .pending) : (Locals.mk T b r).held = true := by
  have hb := (kind_pending fromPayload req b h).1
  simpa [Locals.held] using hb

theorem left_of_receive (req : Request) (ts : List Turn) (l l' : Locals) (start : ℚ)
    (es : List Event) (h : receive fromPayload req l start ts = (.left l', es)) :
    Left fromPayload req l.timeout start l.held ts l'.timeout l'.held := by
  induction ts generalizing l start es with
  | nil =>
    simp only [receive, Prod.mk.injEq, Exit.left.injEq] at h
    obtain ⟨rfl, -⟩ := h
    exact .over _ _ _
  | cons t ts ih =>
    rw [receive_cons] at h
    by_cases hl : t.now - start > l.timeout
    · simp only [if_pos hl, Prod.mk.injEq, Exit.left.injEq] at h
      obtain ⟨rfl, -⟩ := h
      exact .late _ _ hl
    rw [if_neg hl] at h
    cases hk : kind fromPayload req t.reply with
    | silence =>
      simp only [hk, Prod.mk.injEq, Exit.left.injEq] at h
      obtain ⟨rfl, -⟩ := h
      exact .silent _ _ hl hk
    | invalid => simp [hk] at h
    | foreign =>
      simp only [hk, after, Prod.mk.injEq] at h
      exact .foreign _ hl hk (ih _ _ _ (Prod.ext h.1 rfl))
    | pending =>
      simp only [hk, after, Prod.mk.injEq] at h
      have hr := ih _ _ _ (Prod.ext h.1 rfl)
      rw [held_of_reply fromPayload req _ _ _ hk] at hr
      exact .pending _ hl hk hr
    | answer => simp [hk] at h

theorem receive_of_left (req : Request) (ts : List Turn) (l : Locals) (start T : ℚ) (q : Bool)
    (h : Left fromPayload req l.timeout start l.held ts T q) :
    ∃ l' es, receive fromPayload req l start ts = (.left l', es) ∧
      l'.timeout = T ∧ l'.held = q := by
  induction ts generalizing l start with
  | nil =>
    cases h
    exact ⟨_, _, rfl, rfl, rfl⟩
  | cons t ts ih =>
    rw [receive_cons]
    cases h with
    | late _ _ h => exact ⟨l, [], if_pos h, rfl, rfl⟩
    | silent _ _ h hk =>
      simp only [if_neg h, hk]
      exact ⟨_, _, rfl, rfl, rfl⟩
    | foreign _ h hk rest =>
      obtain ⟨l', es, hr, ht, hq⟩ :=
        ih { l with rawResponse := [], response := some (fromPayload t.reply) } start rest
      simp only [if_neg h, hk, hr]
      exact ⟨l', _, rfl, ht, hq⟩
    | pending _ h hk rest =>
      rw [← held_of_reply fromPayload req defaultUdsPendingTimeout t.reply
        (some (fromPayload t.reply)) hk] at rest
      obtain ⟨l', es, hr, ht, hq⟩ :=
        ih ⟨defaultUdsPendingTimeout, t.reply, some (fromPayload t.reply)⟩ t.restart rest
      simp only [if_neg h, hk, hr]
      exact ⟨l', _, rfl, ht, hq⟩

/-- All attempts are sent in full and left without a result. The last flag
tells whether the loops end while a pending reply is still held. -/
inductive FallsThrough (req : Request) : ℚ → Bool → List Attempt → Bool → Prop
  | nil (timeout : ℚ) (p : Bool) : FallsThrough req timeout p [] p
  | cons {timeout timeout' : ℚ} {p p' q : Bool} {a : Attempt} {as : List Attempt}
      (hs : ¬ a.sentBytes < req.payload.length)
      (hl : Left fromPayload req timeout a.start p a.turns timeout' p')
      (rest : FallsThrough req timeout' p' as q) : FallsThrough req timeout p (a :: as) q

end InVehicle.UdsExchange
