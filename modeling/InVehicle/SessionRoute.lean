import InVehicle.Effect
import InVehicle.UdsSoundness
import InVehicle.Words
import Mathlib.Data.Int.Bitwise

/-!
# The route to a session

`UdsUtils.transit_to_session` with the security access of its entries, and the
recovery plugin on top of it. udsoncan makes the requests and interprets the
responses. Each exchange of a call has its own behaviour of the link, and the log keeps
what went over the link in it.
-/

set_option autoImplicit false

namespace InVehicle.SessionRoute
open InVehicle.Effect InVehicle.UdsExchange InVehicle.UdsSoundness InVehicle.Words

inductive ServiceError where
  | uds (e : UdsError)
  | valueError
  | attributeError
  | structError
  | udsoncan (name : String)
  deriving DecidableEq, Repr

inductive UdsStandardVersion where
  | iso14229_2006
  | iso14229_2013
  | iso14229_2020
  deriving DecidableEq, Repr

/-- What udsoncan does for the two services: the requests that it makes and what it
reads from their responses, `session_echo`, `seed` and `security_level_echo`. -/
structure Services where
  fromPayload : Bytes → RawUdsResponse
  makeSession : ℤ → Except ServiceError Request
  interpretSession : UdsStandardVersion → RawUdsResponse → Except ServiceError ℤ
  makeSeed : Option ℤ → Except ServiceError Request
  interpretSeed : RawUdsResponse → Except ServiceError Bytes
  makeKey : Option ℤ → Bytes → Except ServiceError Request
  interpretKey : RawUdsResponse → Except ServiceError ℤ

/-- `SECURITY_ALGORITHM_XOR` and `SECURITY_ALGORITHM_PIN`, on the seed as an integer. -/
inductive KeyAlgorithm where
  | xor (xorVal : ℤ)
  | pin (pin : ℤ)
  deriving DecidableEq, Repr

structure SecurityAlgorithm where
  seedSubfunction : Option ℤ
  keySubfunction : Option ℤ
  key : KeyAlgorithm
  deriving DecidableEq, Repr

/-- `struct.pack('>L', n)` -/
def packL (n : ℤ) : Except ServiceError Bytes :=
  if 0 ≤ n ∧ n < 256 ^ 4 then .ok (byte.be 4 n.toNat) else .error .structError

def KeyAlgorithm.call (a : KeyAlgorithm) (seed : Bytes) : Except ServiceError Bytes :=
  match a with
  | .xor xorVal => packL (Int.xor (byte.ofBe seed) xorVal)
  | .pin n => packL (byte.ofBe seed + n)

structure ElevationInfo where
  needElevation : Option Bool
  securityAlgorithm : Option SecurityAlgorithm
  deriving DecidableEq, Repr

structure SessionAccess where
  id : ℤ
  elevationInfo : Option ElevationInfo
  deriving DecidableEq, Repr

structure SessionInfo where
  accessible : Bool
  elevationInfo : Option ElevationInfo
  routeToSession : List SessionAccess
  deriving DecidableEq, Repr

/-! ## The methods -/

section Methods
variable {m : Type → Type} [Monad m] [MonadExcept ServiceError m]

/-- `UdsUtils` on its way to a session, over what its exchanges do. -/
structure UdsUtils (m : Type → Type) where
  services : Services
  standardVersion : UdsStandardVersion
  sendAndReadResponse : Request → m RawUdsResponse

namespace UdsUtils

variable (u : UdsUtils m)

def session (id : ℤ) : m ℤ := do
  let request ← ofExcept (u.services.makeSession id)
  let response ← u.sendAndReadResponse request
  ofExcept (u.services.interpretSession u.standardVersion response)

def securityAccess (securityAlgorithm : SecurityAlgorithm) : m Bool := do
  let request ← ofExcept (u.services.makeSeed securityAlgorithm.seedSubfunction)
  let response ← u.sendAndReadResponse request
  let seed ← ofExcept (u.services.interpretSeed response)
  if seed.all (· == 0) then return true
  let sessionKey ← ofExcept (securityAlgorithm.key.call seed)
  let request ← ofExcept (u.services.makeKey securityAlgorithm.keySubfunction sessionKey)
  let response ← u.sendAndReadResponse request
  let securityLevelEcho ← ofExcept (u.services.interpretKey response)
  return some securityLevelEcho == securityAlgorithm.keySubfunction

/-- The elevation of an entry: every failure of it is logged and dropped. -/
def elevate : Option ElevationInfo → m Unit
  | some ⟨_, some securityAlgorithm⟩ =>
    tryCatch (do let _ ← u.securityAccess securityAlgorithm) fun _ => return ()
  | _ => return ()

/-- The body of the loop. An unexpected session echo is only logged. -/
def enter (s : SessionAccess) : m Bool :=
  tryCatch
    (do
      let _ ← u.session s.id
      u.elevate s.elevationInfo
      return true)
    fun _ => return false

def transitToSession : List SessionAccess → m Bool
  | [] => return true
  | s :: route => do
    let entered ← u.enter s
    if entered then transitToSession route else return false

/-- The elevation of `UdsEcuRecoverPlugin`: without an algorithm it fails on `None`. -/
def elevateFirst : Option ElevationInfo → m Unit
  | some ⟨_, some securityAlgorithm⟩ =>
    tryCatch (do let _ ← u.securityAccess securityAlgorithm) fun _ => return ()
  | some ⟨_, none⟩ => tryCatch (throw .attributeError) fun _ => return ()
  | none => return ()

def recover (sessionInfo : SessionInfo) : m Bool := do
  u.elevateFirst sessionInfo.elevationInfo
  u.transitToSession sessionInfo.routeToSession

end UdsUtils

end Methods

/-! ## Calls on a link -/

/-- A call of `_send_and_read_response`, with the bytes that it sent and received. -/
structure Exchanged where
  request : Request
  events : List Event
  deriving DecidableEq

structure Log where
  exchanged : List Exchanged
  deriving DecidableEq

def Log.start : Log := ⟨[]⟩

def Log.exchanges (log : Log) : ℕ := log.exchanged.length

abbrev Uds (α : Type) : Type := Prog Log ServiceError α

/-- A call of `transit_to_session`: the library, the number of attempts, the timeout
and the standard version, and the behaviour of the link in its k-th exchange. -/
structure Setting where
  services : Services
  attempts : ℕ
  timeout : ℚ
  standardVersion : UdsStandardVersion
  behaviour : ℕ → ℕ → Attempt

namespace Setting

variable (u : Setting)

/-- `_send_and_read_response` -/
def exchange (request : Request) : Uds RawUdsResponse := fun log =>
  let run := sendAndReadResponse u.services.fromPayload request u.attempts u.timeout
    (u.behaviour log.exchanges)
  let next : Log := ⟨log.exchanged ++ [⟨request, run.2⟩]⟩
  match run.1 with
  | .ok response => (.ok response, next)
  | .error e => (.error (.uds e), next)

def utils : UdsUtils Uds := ⟨u.services, u.standardVersion, u.exchange⟩

def securityAccess (securityAlgorithm : SecurityAlgorithm) : Uds Bool :=
  u.utils.securityAccess securityAlgorithm

end Setting

/-! ## What a call has asked the ECU -/

def sessionResponseId : ℕ := 0x50

def securityResponseId : ℕ := 0x67

/-- The requests of the two services wait for the identifiers of their own responses. -/
structure Addressed (services : Services) : Prop where
  session : ∀ id request, services.makeSession id = .ok request →
    request.responseId = sessionResponseId
  seed : ∀ subfunction request, services.makeSeed subfunction = .ok request →
    request.responseId = securityResponseId
  key : ∀ subfunction key request, services.makeKey subfunction key = .ok request →
    request.responseId = securityResponseId

def sessions (log : Log) : List Exchanged :=
  log.exchanged.filter fun x => x.request.responseId == sessionResponseId

section Results
variable (services : Services) (standardVersion : UdsStandardVersion)

def Echoes (x : Exchanged) (echo : ℤ) : Prop :=
  ∃ r, AnsweredBy services.fromPayload x.request x.events r ∧ r.positive = true ∧
    services.interpretSession standardVersion r = .ok echo

/-- The result of a call and the session requests that it has sent, as they should be: the
entries are asked for one after another, up to the first one that the ECU does not echo. -/
def Followed : List SessionAccess → List Exchanged → Bool → Prop
  | [], xs, result => xs = [] ∧ result = true
  | s :: route, xs, result =>
    match services.makeSession s.id with
    | .error _ => xs = [] ∧ result = false
    | .ok request => ∃ x rest, xs = x :: rest ∧ x.request = request ∧
        (Echoes services standardVersion x s.id ∧ Followed route rest result ∨
          ¬ Echoes services standardVersion x s.id ∧ rest = [] ∧ result = false)

def Refused (route : List SessionAccess) : Prop :=
  ∃ next ∈ route.head?, ∃ e, services.makeSession next.id = .error e

/-- The ECU echoes no other session than the one asked for, unless there is no request
for the entry behind it. -/
def EchoesRight : List SessionAccess → List Exchanged → Prop
  | s :: route, x :: xs =>
    ((∃ echo, Echoes services standardVersion x echo ∧ echo ≠ s.id) → Refused services route) ∧
      EchoesRight route xs
  | _, _ => True

end Results

section Steps

variable (u : Setting) {log : Log}

theorem ofExcept_apply {α : Type} (x : Except ServiceError α) (log : Log) :
    (ofExcept x : Uds α) log = (x, log) := by
  cases x <;> rfl

theorem ensures_ofExcept {α : Type} (I : Log → Prop) (x : Except ServiceError α) :
    Ensures I (ofExcept x : Uds α) (fun a log => I log ∧ x = .ok a) (fun _ => I) := by
  intro log h
  rw [ofExcept_apply]
  cases x with
  | ok a => exact ⟨h, rfl⟩
  | error e => exact h

theorem exchange_run (request : Request) (log : Log) :
    ∃ x : Exchanged, x.request = request ∧
      (u.exchange request log).2 = ⟨log.exchanged ++ [x]⟩ ∧
      ∀ response, (u.exchange request log).1 = .ok response ↔
        AnsweredBy u.services.fromPayload request x.events response ∧
          response.positive = true := by
  have hiff : ∀ response, (sendAndReadResponse u.services.fromPayload request u.attempts u.timeout
        (u.behaviour log.exchanges)).1 = .ok response ↔ _ :=
    fun response => response_iff request u.attempts u.timeout (u.behaviour log.exchanges) response
  rw [Setting.exchange]
  rcases hrun : sendAndReadResponse u.services.fromPayload request u.attempts u.timeout
    (u.behaviour log.exchanges) with ⟨e | response, es⟩
  · refine ⟨⟨request, es⟩, rfl, rfl, fun response => ?_⟩
    rw [hrun] at hiff
    rw [← hiff]
    simp
  · refine ⟨⟨request, es⟩, rfl, rfl, fun response' => ?_⟩
    rw [hrun] at hiff
    rw [← hiff]
    simp

theorem sessions_append (log : Log) (x : Exchanged) :
    sessions ⟨log.exchanged ++ [x]⟩ =
      if x.request.responseId = sessionResponseId then sessions log ++ [x] else sessions log := by
  rw [sessions, sessions, List.filter_append]
  by_cases hx : x.request.responseId = sessionResponseId
  · rw [if_pos hx, List.filter_cons_of_pos (by simpa using hx), List.filter_nil]
  · rw [if_neg hx, List.filter_cons_of_neg (by simpa using hx), List.filter_nil, List.append_nil]

theorem keeps_exchange (xs : List Exchanged) {request : Request}
    (hid : request.responseId = securityResponseId) :
    Keeps (fun log => sessions log = xs) (u.exchange request) := by
  refine keeps_iff.mpr fun log hlog => ?_
  obtain ⟨x, rfl, hnext, -⟩ := exchange_run u request log
  have hother : x.request.responseId ≠ sessionResponseId := by
    rw [hid]
    decide
  rw [hnext, sessions_append, if_neg hother, hlog]

variable (h : Addressed u.services)
include h

theorem keeps_securityAccess (xs : List Exchanged) (a : SecurityAlgorithm) :
    Keeps (fun log => sessions log = xs) (u.utils.securityAccess a) := by
  refine ensures_bind (ensures_ofExcept _ _) fun request => ensures_fact fun hrequest => ?_
  refine ensures_bind (keeps_exchange u xs (h.seed _ _ hrequest)) fun response => ?_
  refine ensures_bind (ensures_ofExcept _ _) fun seed => ensures_fact fun _ => ?_
  refine ensures_ite (fun _ => ensures_pure fun _ hlog => hlog) fun _ => ?_
  refine ensures_bind (ensures_ofExcept _ _) fun sessionKey => ensures_fact fun _ => ?_
  refine ensures_bind (ensures_ofExcept _ _) fun request => ensures_fact fun hrequest => ?_
  refine ensures_bind (keeps_exchange u xs (h.key _ _ _ hrequest)) fun response => ?_
  refine ensures_bind (ensures_ofExcept _ _) fun echo => ensures_fact fun _ => ?_
  exact ensures_pure fun _ hlog => hlog

theorem tryCatch_security (a : SecurityAlgorithm) (log : Log) :
    ∃ t, tryCatch (do let _ ← u.utils.securityAccess a) (fun _ => (return () : Uds Unit)) log =
        (.ok (), t) ∧ sessions t = sessions log := by
  have hkeep := keeps_iff.mp (keeps_securityAccess u h (sessions log) a) log rfl
  match hx : u.utils.securityAccess a log with
  | (.ok b, t) =>
    rw [hx] at hkeep
    exact ⟨t, tryCatch_ok (bind_ok hx), hkeep⟩
  | (.error e, t) =>
    rw [hx] at hkeep
    exact ⟨t, tryCatch_error (bind_error hx), hkeep⟩

theorem elevate_returns (info : Option ElevationInfo) (log : Log) :
    ∃ t, u.utils.elevate info log = (.ok (), t) ∧ sessions t = sessions log := by
  match info with
  | some ⟨_, some securityAlgorithm⟩ => exact tryCatch_security u h securityAlgorithm log
  | some ⟨_, none⟩ => exact ⟨log, rfl, rfl⟩
  | none => exact ⟨log, rfl, rfl⟩

omit h in
theorem enter_refused {s : SessionAccess} {e : ServiceError}
    (h : u.services.makeSession s.id = .error e) : u.utils.enter s log = (.ok false, log) := by
  have hmade : (ofExcept (u.services.makeSession s.id) : Uds Request) log = (.error e, log) := by
    rw [ofExcept_apply, h]
  have hsession : u.utils.session s.id log = (.error e, log) := bind_error hmade
  rw [UdsUtils.enter, tryCatch_error (bind_error hsession)]
  rfl

omit h in
theorem session_run {id : ℤ} {request : Request}
    (hrequest : u.services.makeSession id = .ok request) (log : Log) :
    ∃ x : Exchanged, x.request = request ∧
      (u.utils.session id log).2 = ⟨log.exchanged ++ [x]⟩ ∧
      ∀ echo, (u.utils.session id log).1 = .ok echo ↔
        Echoes u.services u.standardVersion x echo := by
  obtain ⟨x, rfl, hnext, hresponse⟩ := exchange_run u request log
  have hmade : (ofExcept (u.services.makeSession id) : Uds Request) log =
      (.ok x.request, log) := by
    rw [ofExcept_apply, hrequest]
  have hsession : u.utils.session id log = (u.exchange x.request >>= fun response =>
      ofExcept (u.services.interpretSession u.standardVersion response)) log := bind_ok hmade
  refine ⟨x, rfl, ?_⟩
  rw [hsession]
  rcases hrun : u.exchange x.request log with ⟨e | response, t⟩
  · rw [hrun] at hnext hresponse
    rw [bind_error hrun]
    refine ⟨hnext, fun echo => iff_of_false (by simp) ?_⟩
    rintro ⟨r, hanswered, hpositive, -⟩
    cases (hresponse r).mpr ⟨hanswered, hpositive⟩
  · rw [hrun] at hnext hresponse
    rw [bind_ok hrun, ofExcept_apply]
    refine ⟨hnext, fun echo => ?_⟩
    obtain ⟨hanswered, hpositive⟩ := (hresponse response).mp rfl
    constructor
    · exact fun hecho => ⟨response, hanswered, hpositive, hecho⟩
    · rintro ⟨r, hanswered', hpositive', hecho⟩
      cases (hresponse r).mpr ⟨hanswered', hpositive'⟩
      exact hecho

theorem enter_asked {s : SessionAccess} {request : Request}
    (hrequest : u.services.makeSession s.id = .ok request) (log : Log) :
    ∃ x t, sessions t = sessions log ++ [x] ∧ x.request = request ∧
      ((∃ echo, (∀ e, Echoes u.services u.standardVersion x e ↔ echo = e) ∧
          u.utils.enter s log = (.ok true, t)) ∨
        (∀ e, ¬ Echoes u.services u.standardVersion x e) ∧
          u.utils.enter s log = (.ok false, t)) := by
  obtain ⟨x, hx, hnext, hechoes⟩ := session_run u hrequest log
  have hsessions : sessions (⟨log.exchanged ++ [x]⟩ : Log) = sessions log ++ [x] := by
    rw [sessions_append, hx, if_pos (h.session _ _ hrequest)]
  rcases hsession : u.utils.session s.id log with ⟨e | echo, t⟩
  · rw [hsession] at hnext hechoes
    obtain rfl : t = _ := hnext
    refine ⟨x, _, hsessions, hx, .inr ⟨fun e he => ?_, ?_⟩⟩
    · cases (hechoes e).mpr he
    · rw [UdsUtils.enter, tryCatch_error (bind_error hsession)]
      rfl
  · rw [hsession] at hnext hechoes
    obtain ⟨t', helevate, hkeep⟩ := elevate_returns u h s.elevationInfo t
    obtain rfl : t = _ := hnext
    refine ⟨x, t', hkeep.trans hsessions, hx, .inl ⟨echo, fun e => ?_, ?_⟩⟩
    · rw [← hechoes, Except.ok.injEq]
    · rw [UdsUtils.enter, tryCatch_ok]
      rw [bind_ok hsession, bind_ok helevate]
      rfl

end Steps

section Cons

variable {services : Services} {standardVersion : UdsStandardVersion} {s : SessionAccess}
  {route : List SessionAccess} {x : Exchanged} {xs : List Exchanged} {result : Bool}

theorem followed_cons (h : services.makeSession s.id = .ok x.request) :
    Followed services standardVersion (s :: route) (x :: xs) result ↔
      Echoes services standardVersion x s.id ∧ Followed services standardVersion route xs result ∨
        ¬ Echoes services standardVersion x s.id ∧ xs = [] ∧ result = false := by
  rw [Followed, h]
  constructor
  · rintro ⟨x', rest, hcons, -, hrest⟩
    obtain ⟨rfl, rfl⟩ := List.cons.inj hcons
    exact hrest
  · intro hrest
    exact ⟨x, xs, rfl, rfl, hrest⟩

theorem echoesRight_nil : EchoesRight services standardVersion route [] := by
  cases route <;> trivial

/-- An entry that is answered positively, in front of a call that is `Followed` exactly
if its own echoes are right. -/
theorem followed_entered (h : services.makeSession s.id = .ok x.request) {echo : ℤ}
    (hecho : ∀ e, Echoes services standardVersion x e ↔ echo = e)
    (hrefused : xs = [] ∧ result = false ↔ Refused services route)
    (hiff : Followed services standardVersion route xs result ↔
      EchoesRight services standardVersion route xs) :
    Followed services standardVersion (s :: route) (x :: xs) result ↔
      EchoesRight services standardVersion (s :: route) (x :: xs) := by
  have hwrong : (∃ e, Echoes services standardVersion x e ∧ e ≠ s.id) ↔ echo ≠ s.id := by
    simp only [hecho, exists_eq_left']
  rw [followed_cons h, hrefused, hiff, EchoesRight, hwrong, hecho]
  by_cases he : echo = s.id
  · simp [he]
  · have hnil (hr : Refused services route) : EchoesRight services standardVersion route xs := by
      rw [(hrefused.mpr hr).1]
      exact echoesRight_nil
    simp only [he, ne_eq, false_and, false_or, not_false_eq_true, true_and, true_implies]
    exact ⟨fun hr => ⟨hr, hnil hr⟩, fun hr => hr.1⟩

end Cons

theorem transitToSession_run (u : Setting) (h : Addressed u.services)
    (route : List SessionAccess) (log : Log) :
    ∃ result xs t, u.utils.transitToSession route log = (.ok result, t) ∧
      sessions t = sessions log ++ xs ∧
      (xs = [] ∧ result = false ↔ Refused u.services route) ∧
      (Followed u.services u.standardVersion route xs result ↔
        EchoesRight u.services u.standardVersion route xs) := by
  induction route generalizing log with
  | nil =>
    refine ⟨true, [], log, rfl, (List.append_nil _).symm, ?_, ?_⟩
    · simp [Refused]
    · simp [Followed, EchoesRight]
  | cons s route ih =>
    rw [UdsUtils.transitToSession]
    cases hmake : u.services.makeSession s.id with
    | error e =>
      refine ⟨false, [], log, ?_, (List.append_nil _).symm, ?_, ?_⟩
      · rw [bind_ok (enter_refused u hmake)]
        rfl
      · simp [Refused, hmake]
      · simp [Followed, EchoesRight, hmake]
    | ok request =>
      obtain ⟨x, t, hsessions, rfl, ⟨echo, hecho, henter⟩ | ⟨hnone, henter⟩⟩ :=
        enter_asked u h hmake log
      · obtain ⟨result, xs, t', hrun, hlater, hrefused, hiff⟩ := ih t
        refine ⟨result, x :: xs, t', ?_, ?_, ?_, followed_entered hmake hecho hrefused hiff⟩
        · rw [bind_ok henter]
          exact hrun
        · rw [hlater, hsessions, List.append_assoc, List.singleton_append]
        · simp [Refused, hmake]
      · refine ⟨false, [x], t, ?_, hsessions, ?_, ?_⟩
        · rw [bind_ok henter]
          rfl
        · simp [Refused, hmake]
        · rw [followed_cons hmake]
          simp [EchoesRight, echoesRight_nil, hnone]

theorem recover_run (u : Setting) (h : Addressed u.services) (info : SessionInfo) (log : Log) :
    ∃ result xs t, u.utils.recover info log = (.ok result, t) ∧
      sessions t = sessions log ++ xs ∧
      (Followed u.services u.standardVersion info.routeToSession xs result ↔
        EchoesRight u.services u.standardVersion info.routeToSession xs) := by
  have hfirst : ∃ t, u.utils.elevateFirst info.elevationInfo log = (.ok (), t) ∧
      sessions t = sessions log := by
    match info.elevationInfo with
    | some ⟨_, some securityAlgorithm⟩ => exact tryCatch_security u h securityAlgorithm log
    | some ⟨_, none⟩ => exact ⟨log, rfl, rfl⟩
    | none => exact ⟨log, rfl, rfl⟩
  obtain ⟨t, hrun, hkeep⟩ := hfirst
  obtain ⟨result, xs, t', hroute, hsessions, -, hiff⟩ :=
    transitToSession_run u h info.routeToSession t
  refine ⟨result, xs, t', ?_, hkeep ▸ hsessions, hiff⟩
  rw [UdsUtils.recover, bind_ok hrun]
  exact hroute

def isoServices : Services where
  fromPayload := isoFromPayload
  makeSession id :=
    if 0 ≤ id ∧ id ≤ 0x7F then .ok ⟨[0x10, UInt8.ofNat id.toNat], 0x50⟩ else .error .valueError
  interpretSession _ response :=
    match response.data with
    | echo :: _ => .ok echo.toNat
    | [] => .error (.udsoncan "InvalidResponseException")
  makeSeed
    | some level => .ok ⟨[0x27, UInt8.ofNat level.toNat], 0x67⟩
    | none => .error .valueError
  interpretSeed response :=
    match response.data with
    | _ :: seed => .ok seed
    | [] => .error (.udsoncan "InvalidResponseException")
  makeKey
    | some level, key => .ok ⟨0x27 :: UInt8.ofNat level.toNat :: key, 0x67⟩
    | none, _ => .error .valueError
  interpretKey response :=
    match response.data with
    | echo :: _ => .ok echo.toNat
    | [] => .error (.udsoncan "InvalidResponseException")

theorem isoServices_addressed : Addressed isoServices where
  session id request h := by
    simp only [isoServices] at h
    split_ifs at h
    cases h
    rfl
  seed subfunction request h := by
    cases subfunction <;> cases h
    rfl
  key subfunction key request h := by
    cases subfunction <;> cases h
    rfl

end InVehicle.SessionRoute
