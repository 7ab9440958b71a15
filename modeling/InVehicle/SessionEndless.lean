import InVehicle.SessionRoute
import InVehicle.UdsEndless
import InVehicle.Waiting

/-!
# The route to a session on answers that never run out

`transit_to_session` on a link on which an exchange may go on for ever. A call that ends is
one of the calls on finitely many turns.
-/

set_option autoImplicit false

namespace InVehicle.SessionEndless
open InVehicle.Effect InVehicle.Waiting InVehicle.UdsExchange InVehicle.SessionRoute
open InVehicle.UdsEndless (Hangs Transmission attemptLoopFor_ends attemptLoopFor_eq
  attemptLoopFor_hangs attemptLoopFor_mono cut sendAndReadRawResponseFor)

section Exchanges
variable (fromPayload : Bytes → RawUdsResponse)

def positive : Outcome × List Event → Outcome × List Event
  | (.ok r, es) =>
    if r.positive then (.ok r, es) else (.error (.negativeResponse r.code r.codeName), es)
  | (.error e, es) => (.error e, es)

/-- `_send_and_read_response`, if no attempt takes more than `fuel` passes. -/
def sendAndReadResponseFor (fuel : ℕ) (req : Request) (attempts : ℕ) (timeout : ℚ)
    (history : ℕ → Transmission) : Option (Outcome × List Event) :=
  (sendAndReadRawResponseFor fromPayload fuel req attempts timeout history).map positive

variable {fromPayload} {fuel fuel' : ℕ} {req : Request} {attempts : ℕ} {timeout : ℚ}
  {history : ℕ → Transmission} {x : Outcome × List Event}

theorem sendAndReadResponseFor_mono (hle : fuel ≤ fuel')
    (h : sendAndReadResponseFor fromPayload fuel req attempts timeout history = some x) :
    sendAndReadResponseFor fromPayload fuel' req attempts timeout history = some x := by
  obtain ⟨y, hy, rfl⟩ := Option.map_eq_some_iff.mp h
  exact Option.map_eq_some_iff.mpr ⟨y, attemptLoopFor_mono hle hy, rfl⟩

theorem sendAndReadResponseFor_eq
    (h : sendAndReadResponseFor fromPayload fuel req attempts timeout history = some x) :
    sendAndReadResponse fromPayload req attempts timeout (fun k => cut fuel (history k)) = x := by
  obtain ⟨y, hy, rfl⟩ := Option.map_eq_some_iff.mp h
  have hrun := attemptLoopFor_eq hy
  rw [List.map_map] at hrun
  rw [sendAndReadResponse, sendAndReadRawResponse]
  change (match attemptLoop fromPayload req ⟨timeout, [], none⟩
    ((List.range attempts).map (cut fuel ∘ history)) with
    | (.ok r, es) => _
    | (.error e, es) => _) = _
  rw [hrun]
  rfl

theorem sendAndReadResponseFor_hangs (fuel : ℕ)
    (h : Hangs fromPayload req timeout false ((List.range attempts).map history)) :
    sendAndReadResponseFor fromPayload fuel req attempts timeout history = none :=
  Option.map_eq_none_iff.mpr (attemptLoopFor_hangs fuel h)

theorem sendAndReadResponseFor_ends
    (h : ¬ Hangs fromPayload req timeout false ((List.range attempts).map history)) :
    ∃ fuel x, sendAndReadResponseFor fromPayload fuel req attempts timeout history = some x := by
  obtain ⟨fuel, y, hy⟩ := attemptLoopFor_ends (l := ⟨timeout, [], none⟩) h
  exact ⟨fuel, positive y, Option.map_eq_some_iff.mpr ⟨y, hy, rfl⟩⟩

end Exchanges

abbrev UdsFor (α : Type) : Type := Timed Log ServiceError Request α

/-- A call of `transit_to_session`, however long its exchanges go on. -/
structure LongSetting where
  services : Services
  attempts : ℕ
  timeout : ℚ
  standardVersion : UdsStandardVersion
  behaviour : ℕ → ℕ → Transmission

namespace LongSetting

variable (u : LongSetting)

def exchange (fuel : ℕ) (request : Request) : UdsFor RawUdsResponse := fun log =>
  match sendAndReadResponseFor u.services.fromPayload fuel request u.attempts u.timeout
    (u.behaviour log.exchanges) with
  | none => .waits request log
  | some (.ok response, es) => .done (.ok response, ⟨log.exchanged ++ [⟨request, es⟩]⟩)
  | some (.error e, es) => .done (.error (.uds e), ⟨log.exchanged ++ [⟨request, es⟩]⟩)

def utils (fuel : ℕ) : UdsUtils UdsFor := ⟨u.services, u.standardVersion, u.exchange fuel⟩

/-- The first `fuel` turns of each attempt. -/
def cut (fuel : ℕ) : Setting :=
  ⟨u.services, u.attempts, u.timeout, u.standardVersion,
    fun k i => UdsEndless.cut fuel (u.behaviour k i)⟩

/-- Pending or foreign replies to this request, in the next exchange behind the log, keep
the receive loop going for ever. -/
def Stuck (request : Request) (log : Log) : Prop :=
  Hangs u.services.fromPayload request u.timeout false
    ((List.range u.attempts).map (u.behaviour log.exchanges))

theorem approaches_exchange (request : Request) :
    Approaches u.Stuck (u.exchange · request) fun n => (u.cut n).exchange request where
  keeps {n m log} hle h := by
    rw [exchange, exchange]
    cases hn : sendAndReadResponseFor u.services.fromPayload n request u.attempts u.timeout
      (u.behaviour log.exchanges) with
    | some x => rw [sendAndReadResponseFor_mono hle hn]
    | none =>
      rw [exchange, hn] at h
      rw [sendAndReadResponseFor_hangs m h]
  comes log := by
    by_cases hstuck : u.Stuck request log
    · refine ⟨0, ?_⟩
      rw [exchange, sendAndReadResponseFor_hangs 0 hstuck]
      exact hstuck
    · obtain ⟨n, x, hx⟩ := sendAndReadResponseFor_ends hstuck
      refine ⟨n, ?_⟩
      rw [exchange, hx]
      obtain ⟨e | response, es⟩ := x <;> trivial
  agrees {n log x} h := by
    rw [exchange] at h
    cases hn : sendAndReadResponseFor u.services.fromPayload n request u.attempts u.timeout
      (u.behaviour log.exchanges) with
    | none =>
      rw [hn] at h
      cases h
    | some y =>
      rw [hn] at h
      have hrun := sendAndReadResponseFor_eq hn
      change _ = x
      rw [Setting.exchange]
      obtain ⟨e | response, es⟩ := y
      · cases h
        simp only [cut, hrun]
      · cases h
        simp only [cut, hrun]

theorem approaches_session (id : ℤ) :
    Approaches u.Stuck (fun n => (u.utils n).session id) fun n => (u.cut n).utils.session id :=
  approaches_bind (approaches_ofExcept (u.services.makeSession id)) fun request =>
    approaches_bind (u.approaches_exchange request) fun response =>
    approaches_ofExcept (u.services.interpretSession u.standardVersion response)

theorem approaches_securityAccess (a : SecurityAlgorithm) :
    Approaches u.Stuck (fun n => (u.utils n).securityAccess a)
      fun n => (u.cut n).utils.securityAccess a :=
  approaches_bind (approaches_ofExcept (u.services.makeSeed a.seedSubfunction)) fun request =>
    approaches_bind (u.approaches_exchange request) fun response =>
    approaches_bind (approaches_ofExcept (u.services.interpretSeed response)) fun seed =>
    approaches_ite (approaches_pure true) <|
    approaches_bind (approaches_ofExcept (a.key.call seed)) fun sessionKey =>
    approaches_bind (approaches_ofExcept (u.services.makeKey a.keySubfunction sessionKey))
      fun request =>
    approaches_bind (u.approaches_exchange request) fun response =>
    approaches_bind (approaches_ofExcept (u.services.interpretKey response)) fun echo =>
    approaches_pure (some echo == a.keySubfunction)

theorem approaches_elevate (info : Option ElevationInfo) :
    Approaches u.Stuck (fun n => (u.utils n).elevate info)
      fun n => (u.cut n).utils.elevate info := by
  match info with
  | some ⟨_, some a⟩ =>
    exact approaches_tryCatch
      (approaches_bind (u.approaches_securityAccess a) fun _ => approaches_pure ())
      fun _ => approaches_pure ()
  | some ⟨_, none⟩ => exact approaches_pure ()
  | none => exact approaches_pure ()

theorem approaches_enter (s : SessionAccess) :
    Approaches u.Stuck (fun n => (u.utils n).enter s) fun n => (u.cut n).utils.enter s :=
  approaches_tryCatch
    (approaches_bind (u.approaches_session s.id) fun _ =>
      approaches_bind (u.approaches_elevate s.elevationInfo) fun _ => approaches_pure true)
    fun _ => approaches_pure false

theorem approaches_transitToSession (route : List SessionAccess) :
    Approaches u.Stuck (fun n => (u.utils n).transitToSession route)
      fun n => (u.cut n).utils.transitToSession route := by
  induction route with
  | nil => exact approaches_pure true
  | cons s route ih =>
    exact approaches_bind (u.approaches_enter s) fun entered =>
      approaches_ite ih (approaches_pure false)

/-- The call ends with a boolean, and its session requests and their answers on the link
are those that the route and this boolean tell. -/
def Transits (route : List SessionAccess) : Prop :=
  ∃ fuel result t, (u.utils fuel).transitToSession route Log.start = .done (.ok result, t) ∧
    Followed u.services u.standardVersion route (sessions t) result

/-- No exchange that the call comes to goes on for ever. -/
def NoneStuck (route : List SessionAccess) : Prop :=
  ∀ fuel request log, (u.utils fuel).transitToSession route Log.start = .waits request log →
    ¬ u.Stuck request log

def AllEchoesRight (route : List SessionAccess) : Prop :=
  ∀ fuel r t, (u.utils fuel).transitToSession route Log.start = .done (r, t) →
    EchoesRight u.services u.standardVersion route (sessions t)

end LongSetting

variable (u : LongSetting) {route : List SessionAccess} {fuel : ℕ}

theorem transitToSession_end (h : Addressed u.services) {r : Except ServiceError Bool} {t : Log}
    (hend : (u.utils fuel).transitToSession route Log.start = .done (r, t)) :
    ∃ result, r = .ok result ∧ (Followed u.services u.standardVersion route (sessions t) result ↔
      EchoesRight u.services u.standardVersion route (sessions t)) := by
  obtain ⟨result, xs, t', hrun, hsessions, -, hiff⟩ :=
    transitToSession_run (u.cut fuel) h route Log.start
  obtain rfl : sessions t' = xs := hsessions.trans (List.nil_append _)
  cases hrun.symm.trans ((u.approaches_transitToSession route).agrees hend)
  exact ⟨result, rfl, hiff⟩

/-- No call raises. It ends as the exchanges with the link tell exactly if none of these
goes on for ever and no echo in them is wrong. -/
theorem transitToSession_followed_iff (h : Addressed u.services) (route : List SessionAccess) :
    (∀ fuel r t, (u.utils fuel).transitToSession route Log.start = .done (r, t) →
      ∃ result, r = .ok result) ∧
    (u.Transits route ↔ u.NoneStuck route ∧ u.AllEchoesRight route) := by
  have hends := (u.approaches_transitToSession route).ends_iff Log.start
  refine ⟨fun fuel r t hend => ?_, ?_, ?_⟩
  · obtain ⟨result, hr, -⟩ := transitToSession_end u h hend
    exact ⟨result, hr⟩
  · rintro ⟨fuel, result, t, hend, hfollowed⟩
    refine ⟨hends.mp ⟨fuel, _, hend⟩, fun fuel' r t' hend' => ?_⟩
    cases (u.approaches_transitToSession route).unique hend hend'
    obtain ⟨result', hresult, hiff⟩ := transitToSession_end u h hend
    cases hresult
    exact hiff.mp hfollowed
  · rintro ⟨hfree, hechoes⟩
    obtain ⟨fuel, ⟨r, t⟩, hend⟩ := hends.mpr hfree
    obtain ⟨result, rfl, hiff⟩ := transitToSession_end u h hend
    exact ⟨fuel, result, t, hend, hiff.mpr (hechoes fuel _ t hend)⟩

/-- An ECU that answers the k-th exchange with these bytes, again and again. -/
def repeating (replies : ℕ → Bytes) : LongSetting where
  services := isoServices
  attempts := 1
  timeout := 2
  standardVersion := .iso14229_2020
  behaviour k _ := ⟨6, 0, fun _ => ⟨0, replies k, 0⟩⟩

def sessionEcho (id : UInt8) : Bytes := [0x50, id, 0, 50, 1, 244]

def asked (id : UInt8) (reply : Bytes) : Exchanged :=
  ⟨⟨[0x10, id], 0x50⟩, [.send [0x10, id] 2 6, .recv 2 reply]⟩

theorem echoes_asked {id id' : UInt8} {echo : ℤ}
    (h : Echoes isoServices .iso14229_2020 (asked id (sessionEcho id')) echo) :
    echo = id'.toNat := by
  obtain ⟨r, ⟨before, T, n, between, T', b, rest, hes, -, -, rfl⟩, -, hecho⟩ := h
  have hmem : Event.recv T' b ∈ (asked id (sessionEcho id')).events := by
    rw [hes]
    simp
  simp only [asked, List.mem_cons, reduceCtorEq, Event.recv.injEq, List.not_mem_nil, false_or,
    or_false] at hmem
  rw [hmem.2] at hecho
  exact (Except.ok.inj hecho).symm

/-- A route with an elevation in its first entry. -/
def toProgramming : List SessionAccess :=
  [⟨3, some ⟨some true, some ⟨some 1, some 2, .pin 1⟩⟩⟩, ⟨2, none⟩]

def elevates : ℕ → Bytes
  | 0 => sessionEcho 3
  | 1 => [0x67, 1, 0, 0, 0, 5]
  | 2 => [0x67, 2]
  | _ => sessionEcho 2

/-- What the exchanges of the call put on the link. -/
def programmingLog : Log :=
  ⟨[asked 3 (sessionEcho 3),
    ⟨⟨[0x27, 1], 0x67⟩, [.send [0x27, 1] 2 6, .recv 2 [0x67, 1, 0, 0, 0, 5]]⟩,
    ⟨⟨[0x27, 2, 0, 0, 0, 6], 0x67⟩, [.send [0x27, 2, 0, 0, 0, 6] 2 6, .recv 2 [0x67, 2]]⟩,
    asked 2 (sessionEcho 2)]⟩

theorem transitToSession_followed_programming :
    ((repeating elevates).utils 1).transitToSession toProgramming Log.start =
        .done (.ok true, programmingLog) ∧
      Followed isoServices .iso14229_2020 toProgramming
        [asked 3 (sessionEcho 3), asked 2 (sessionEcho 2)] true := by
  have hend : ((repeating elevates).utils 1).transitToSession toProgramming Log.start =
      .done (.ok true, programmingLog) := by
    decide +kernel
  have hsessions : sessions programmingLog = [asked 3 (sessionEcho 3), asked 2 (sessionEcho 2)] :=
    rfl
  have happroaches := (repeating elevates).approaches_transitToSession toProgramming
  have hfree : (repeating elevates).NoneStuck toProgramming :=
    (happroaches.ends_iff Log.start).mp ⟨1, _, hend⟩
  have hechoes : (repeating elevates).AllEchoesRight toProgramming := by
    intro fuel r t hend'
    cases happroaches.unique hend hend'
    rw [hsessions]
    refine ⟨?_, ?_, trivial⟩
    · rintro ⟨echo, hecho, hne⟩
      exact absurd (echoes_asked hecho) hne
    · rintro ⟨echo, hecho, hne⟩
      exact absurd (echoes_asked hecho) hne
  obtain ⟨fuel, result, t, hend', hfollowed⟩ :=
    (transitToSession_followed_iff (repeating elevates) isoServices_addressed
      toProgramming).2.mpr ⟨hfree, hechoes⟩
  cases happroaches.unique hend hend'
  exact ⟨hend, hsessions ▸ hfollowed⟩

/-- The ECU answers every session request with an echo of the default session. -/
theorem default_session_taken_for_extended :
    ((repeating fun _ => sessionEcho 1).utils 1).transitToSession [⟨3, none⟩] Log.start =
        .done (.ok true, ⟨[asked 3 (sessionEcho 1)]⟩) ∧
      ¬ (repeating fun _ => sessionEcho 1).Transits [⟨3, none⟩] := by
  have hend : ((repeating fun _ => sessionEcho 1).utils 1).transitToSession [⟨3, none⟩] Log.start =
      .done (.ok true, ⟨[asked 3 (sessionEcho 1)]⟩) := by
    decide +kernel
  refine ⟨hend, ?_⟩
  rintro ⟨fuel, result, t, hend', hfollowed⟩
  cases ((repeating fun _ => sessionEcho 1).approaches_transitToSession _).unique hend hend'
  obtain ⟨x, rest, hcons, -, ⟨hecho, -⟩ | ⟨-, -, hresult⟩⟩ := hfollowed
  · obtain ⟨rfl, -⟩ := List.cons.inj hcons
    cases echoes_asked hecho
  · cases hresult

end InVehicle.SessionEndless
