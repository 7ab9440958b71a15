import InVehicle.DidRecords
import InVehicle.UdsExchange

/-!
# Crash detection by the active session

`SessionChangeCrashDetector.check_crash` reads the session identifier from the ECU
and compares it with the session it has been told. udsoncan makes the request and
takes the response apart; both are parameters.
-/

set_option autoImplicit false

namespace InVehicle.CrashDetection
open InVehicle.Words InVehicle.HexText InVehicle.Search InVehicle.DidRecords
open InVehicle.UdsExchange

inductive ReadError where
  | uds (e : UdsError)
  | did (e : DidError)
  deriving DecidableEq, Repr

structure SessionChangeCrashDetector where
  currentSession : ℕ
  operationTimeout : ℚ
  gt_one : 1 < currentSession
  le_max : currentSession ≤ 0x7F
  timeout_pos : 0 < operationTimeout

def activeDiagnosticSession : Did := 0xF186

variable (fromPayload : Bytes → RawUdsResponse) (makeRequest : DidList → Request)

def readDid (didlist : DidList) (attempts : ℕ) (timeout : ℚ) (history : ℕ → Attempt) :
    Except ReadError (List RdidDataTuple) :=
  match (sendAndReadResponse fromPayload (makeRequest didlist) attempts timeout history).1 with
  | .error e => .error (.uds e)
  | .ok response =>
    match splitDids didlist response.data with
    | .error e => .error (.did e)
    | .ok dids => .ok dids

def checkCrash (s : SessionChangeCrashDetector) (attempts : ℕ) (history : ℕ → Attempt) : Bool :=
  match readDid fromPayload makeRequest (.one activeDiagnosticSession.val) attempts
      s.operationTimeout history with
  | .ok [] => false
  | .ok (t :: _) =>
    match intOfText t.data with
    | some activeSession => activeSession != s.currentSession
    | none => false
  | .error (.uds .noResponse) => true
  | .error (.uds (.negativeResponse _ _)) => false
  | .error _ => false

def answer (s : SessionChangeCrashDetector) (attempts : ℕ) (history : ℕ → Attempt) : Outcome :=
  (sendAndReadResponse fromPayload (makeRequest (.one activeDiagnosticSession.val)) attempts
    s.operationTimeout history).1

/-- No response, or a session other than the current one, as an unsigned number. -/
def Crashed (currentSession : ℕ) (o : Outcome) : Prop :=
  o = .error .noResponse ∨
    ∃ response record, o = .ok response ∧
      response.data = didBytes activeDiagnosticSession ++ record ∧ record ≠ [] ∧
      byte.ofBe record ≠ currentSession

/-- A record of decimal digits has to be a session below ten, or none that the code
takes for the current one or the current one for. Any other record has to be empty
or the current session. An identifier further back must not be followed by decimal
digits, unless they spell the current session. -/
def ReadRight (currentSession : ℕ) (data : Bytes) : Prop :=
  match find (didBytes activeDiagnosticSession) data with
  | none => True
  | some 0 =>
    if Readable (data.drop 2) then
      byte.ofBe (data.drop 2) = currentSession ∨ byte.ofBe (data.drop 2) = bcd currentSession →
        currentSession ≤ 9
    else data.drop 2 = [] ∨ byte.ofBe (data.drop 2) = currentSession
  | some (p + 1) =>
    Readable (data.drop (p + 3)) → byte.ofBe (data.drop (p + 3)) = bcd currentSession

theorem splitDids_one (d : Did) (data : Bytes) :
    splitDids (.one d.val) data =
      .ok ((find (didBytes d) data).toList.map fun p => ⟨d.val, hex (data.drop (p + 2))⟩) := by
  have hdids : (DidList.one d.val).dids = [(d.val : ℤ)] := rfl
  cases hp : find (didBytes d) data with
  | none =>
    rw [splitDids_single hdids (toBytes_did d) hp]
    rfl
  | some p =>
    rw [splitDids_found hdids (toBytes_did d) hp]
    rfl

variable (s : SessionChangeCrashDetector) (attempts : ℕ) (history : ℕ → Attempt)

theorem checkCrash_ok (response : RawUdsResponse)
    (h : answer fromPayload makeRequest s attempts history = .ok response) :
    checkCrash fromPayload makeRequest s attempts history = true ↔
      ∃ p ∈ find (didBytes activeDiagnosticSession) response.data,
        Readable (response.data.drop (p + 2)) ∧
          byte.ofBe (response.data.drop (p + 2)) ≠ bcd s.currentSession := by
  rw [answer] at h
  simp only [checkCrash, readDid, h, splitDids_one]
  cases find (didBytes activeDiagnosticSession) response.data with
  | none => simp
  | some p =>
    simp only [Option.toList_some, List.map_cons, List.map_nil, intOfText_hex, Option.mem_some_iff,
      exists_eq_left']
    by_cases hr : Readable (response.data.drop (p + 2))
    · simp [hr, ← ofDigits_eq_iff _ hr.2.2]
    · simp [hr]

theorem checkCrash_error (e : UdsError)
    (h : answer fromPayload makeRequest s attempts history = .error e) :
    checkCrash fromPayload makeRequest s attempts history = true ↔ e = .noResponse := by
  rw [answer] at h
  simp only [checkCrash, readDid, h]
  cases e <;> simp

theorem crashed_ok_iff (currentSession : ℕ) (response : RawUdsResponse) :
    Crashed currentSession (.ok response) ↔
      find (didBytes activeDiagnosticSession) response.data = some 0 ∧ response.data.drop 2 ≠ [] ∧
        byte.ofBe (response.data.drop 2) ≠ currentSession := by
  constructor
  · rintro (h | ⟨r, record, ⟨⟩, hdata, hne, hvalue⟩)
    · cases h
    · have hdrop : response.data.drop 2 = record := by
        rw [hdata, List.drop_left' (length_didBytes _)]
      rw [hdrop]
      refine ⟨?_, hne, hvalue⟩
      rw [hdata]
      exact find_prefix _ _
  · rintro ⟨hfind, hne, hvalue⟩
    have hdrop := ((find_eq_some_iff _ _ 0).mp hfind).1.drop_eq
    rw [length_didBytes] at hdrop
    exact Or.inr ⟨response, _, rfl, hdrop, hne, hvalue⟩

/-- The verdict is right exactly where reading the hexadecimal text in base ten is. -/
theorem checkCrash_right_iff :
    (checkCrash fromPayload makeRequest s attempts history = true ↔
        Crashed s.currentSession (answer fromPayload makeRequest s attempts history)) ↔
      ∀ response, answer fromPayload makeRequest s attempts history = .ok response →
        ReadRight s.currentSession response.data := by
  cases h : answer fromPayload makeRequest s attempts history with
  | error e =>
    have hcrashed : Crashed s.currentSession (.error e) ↔ e = .noResponse := by
      simp [Crashed]
    rw [checkCrash_error fromPayload makeRequest s attempts history e h, hcrashed]
    simp
  | ok response =>
    have hself := bcd_eq_self_iff s.currentSession (by have hle := s.le_max; omega)
    rw [checkCrash_ok fromPayload makeRequest s attempts history response h, crashed_ok_iff]
    simp only [Except.ok.injEq, forall_eq', ReadRight]
    cases find (didBytes activeDiagnosticSession) response.data with
    | none => simp
    | some p =>
      cases p with
      | zero =>
        simp only [Option.mem_some_iff, exists_eq_left', Nat.zero_add, true_and]
        by_cases hr : Readable (response.data.drop 2)
        · rw [if_pos hr, ← hself]
          simp only [hr, hr.1, true_and, ne_eq, not_false_eq_true, not_iff_not]
          constructor
          · rintro hiff (hv | hv)
            · exact hv.symm.trans (hiff.mpr hv)
            · exact (hiff.mp hv).symm.trans hv
          · intro hself
            exact ⟨fun hv => hv.trans (hself (Or.inr hv)).symm,
              fun hv => hv.trans (hself (Or.inl hv))⟩
        · rw [if_neg hr]
          simp only [hr, false_and, false_iff, not_and_or, ne_eq, not_not]
      | succ p => simp

/-- Session 0x10 is still the active one and is taken for session ten. -/
theorem session_sixteen_misread :
    checkCrash isoFromPayload (fun _ => ⟨[0x22, 0xF1, 0x86], 0x62⟩)
        ⟨16, 2, by decide, by decide, by decide +kernel⟩ 1
        (fun _ => ⟨3, 0, [⟨0, [0x62, 0xF1, 0x86, 0x10], 0⟩]⟩) = true ∧
      ¬ Crashed 16 (answer isoFromPayload (fun _ => ⟨[0x22, 0xF1, 0x86], 0x62⟩)
        ⟨16, 2, by decide, by decide, by decide +kernel⟩ 1
        (fun _ => ⟨3, 0, [⟨0, [0x62, 0xF1, 0x86, 0x10], 0⟩]⟩)) := by
  refine ⟨by decide +kernel, ?_⟩
  have hanswer : answer isoFromPayload (fun _ => ⟨[0x22, 0xF1, 0x86], 0x62⟩)
      ⟨16, 2, by decide, by decide, by decide +kernel⟩ 1
      (fun _ => ⟨3, 0, [⟨0, [0x62, 0xF1, 0x86, 0x10], 0⟩]⟩) =
        .ok ⟨true, "", 0x62, true, 0, "PositiveResponse", [0xF1, 0x86, 0x10]⟩ := by
    decide +kernel
  rw [hanswer, crashed_ok_iff]
  decide

end InVehicle.CrashDetection
