import InVehicle.UdsServices

/-!
# Plugins on the UDS services

`UnrespondedTesterPresentCrashDetector` and `UdsBasedEcuResetPlugin`. Neither raises,
whatever the service does.
-/

set_option autoImplicit false

namespace InVehicle.UdsPlugins
open InVehicle.Effect InVehicle.UdsExchange InVehicle.UdsServices

structure UnrespondedTesterPresentCrashDetector where
  operationTimeout : ℚ
  timeout_pos : 0 < operationTimeout

structure UdsBasedEcuResetPlugin where
  resetType : ℕ
  operationTimeout : ℚ
  le_max : resetType ≤ 0x7F
  timeout_pos : 0 < operationTimeout

section Code

variable {Routine Dtc : Type} (u : UdsUtils Routine Dtc)

def checkCrash (d : UnrespondedTesterPresentCrashDetector) : Uds Bool :=
  Prog.attempt
    (do
      let res ← u.testerPresent d.operationTimeout
      return res != true)
    fun e => match e with
      | .uds .noResponse => return true
      | .uds (.negativeResponse _ _) => return false
      | _ => return false

def reset (plugin : UdsBasedEcuResetPlugin) : Uds Bool :=
  Prog.attempt (u.ecuReset plugin.resetType plugin.operationTimeout) fun _ => return false

end Code

/-! ## Verdicts -/

section Verdicts

variable {Routine Dtc : Type} (u : UdsUtils Routine Dtc) (log : List Exchanged)

/-- There was no response, or a positive one with another echo than zero. -/
def Crashed (t : List Exchanged) : Prop :=
  ∃ x, t = log ++ [x] ∧ u.udsoncan.testerPresent.makeRequest () = .ok x.request ∧
    (x.outcome = .error .noResponse ∨ ∃ response echo, Answered u x response ∧
      u.udsoncan.testerPresent.interpretResponse response = .ok echo ∧ echo ≠ 0)

theorem testerPresent_run (timeout : ℚ) {echo : ℤ} {t : List Exchanged}
    (h : u.call u.udsoncan.testerPresent () timeout log = (.ok echo, t)) :
    u.testerPresent timeout log = (.ok (echo == 0), t) := by
  rw [UdsUtils.testerPresent, bind_ok h]
  rfl

theorem last_eq {x y : Exchanged} (h : log ++ [x] = log ++ [y]) : x = y :=
  (List.cons.inj (List.append_cancel_left h)).1

/-- The detector never raises. It reports a crash exactly if the exchange has ended with no
response at all, or with a positive response that does not echo the request. -/
theorem checkCrash_iff (d : UnrespondedTesterPresentCrashDetector) :
    ∃ b t, checkCrash u d log = (.ok b, t) ∧ (b = true ↔ Crashed u log t) := by
  have hended := call_ended u log u.udsoncan.testerPresent () d.operationTimeout
  rcases hrun : u.call u.udsoncan.testerPresent () d.operationTimeout log with ⟨r, t⟩
  rw [hrun] at hended
  have herror : ∀ e, u.call u.udsoncan.testerPresent () d.operationTimeout log = (.error e, t) →
      (do
        let res ← u.testerPresent d.operationTimeout
        return res != true : Uds Bool) log = (.error e, t) := by
    intro e he
    have htester : u.testerPresent d.operationTimeout log = (.error e, t) := bind_error he
    exact bind_error htester
  cases hended with
  | @refused e hmake =>
    refine ⟨false, t, ?_, iff_of_false Bool.false_ne_true ?_⟩
    · rw [checkCrash, attempt_error (herror _ hrun)]
      rfl
    · rintro ⟨x, hx, -⟩
      simp at hx
  | @unanswered x e hmake hx =>
    have hcrashed : Crashed u log (log ++ [x]) ↔ e = .noResponse := by
      constructor
      · rintro ⟨y, hy, -, h⟩
        rw [← last_eq log hy, hx] at h
        rcases h with h | ⟨response, echo, h, -⟩
        · exact Except.error.inj h
        · have hok := h.outcome
          rw [hx] at hok
          cases hok
      · rintro rfl
        exact ⟨x, rfl, hmake, .inl hx⟩
    have hcheck : checkCrash u d log = (.ok (decide (e = .noResponse)), log ++ [x]) := by
      rw [checkCrash, attempt_error (herror _ hrun)]
      cases e <;> rfl
    exact ⟨_, _, hcheck, by rw [hcrashed, decide_eq_true_iff]⟩
  | @illegible x response e hmake hx he =>
    refine ⟨false, log ++ [x], ?_, iff_of_false Bool.false_ne_true ?_⟩
    · rw [checkCrash, attempt_error (herror _ hrun)]
      rfl
    · rintro ⟨y, hy, -, h⟩
      rw [← last_eq log hy, hx.outcome] at h
      rcases h with h | ⟨response', echo, h, hecho, -⟩
      · cases h
      · have hok := h.outcome
        rw [hx.outcome] at hok
        rw [← Except.ok.inj hok, he] at hecho
        cases hecho
  | @answered x response echo hmake hx hecho =>
    have hcheck : checkCrash u d log = (.ok ((echo == 0) != true), log ++ [x]) := by
      rw [checkCrash, attempt_ok]
      rw [bind_ok (testerPresent_run u log d.operationTimeout hrun)]
      rfl
    refine ⟨_, _, hcheck, ?_⟩
    constructor
    · intro h
      exact ⟨x, rfl, hmake, .inr ⟨response, echo, hx, hecho, by simpa using h⟩⟩
    · rintro ⟨y, hy, -, h⟩
      rw [← last_eq log hy, hx.outcome] at h
      rcases h with h | ⟨response', echo', h, hecho', hne⟩
      · cases h
      · have hok := h.outcome
        rw [hx.outcome] at hok
        rw [← Except.ok.inj hok, hecho] at hecho'
        cases hecho'
        simpa using hne

/-- The reset plugin never raises, and reports a reset exactly if the ECU has answered its
request positively with the type it was asked for. -/
theorem reset_iff (plugin : UdsBasedEcuResetPlugin) :
    ∃ b t, reset u plugin log = (.ok b, t) ∧ (b = true ↔
      Done u log u.udsoncan.ecuReset plugin.resetType plugin.resetType t) := by
  have hended := call_ended u log u.udsoncan.ecuReset plugin.resetType plugin.operationTimeout
  rcases hrun : u.call u.udsoncan.ecuReset plugin.resetType plugin.operationTimeout log with ⟨r, t⟩
  rw [hrun] at hended
  have hfalse : ∀ e, r = .error e → reset u plugin log = (.ok false, t) := by
    rintro e rfl
    have hreset : u.ecuReset plugin.resetType plugin.operationTimeout log = (.error e, t) :=
      bind_error hrun
    rw [reset, attempt_error hreset]
    rfl
  cases hended with
  | @refused e hmake =>
    refine ⟨false, t, hfalse _ rfl, iff_of_false Bool.false_ne_true ?_⟩
    rintro ⟨x, -, hx, -⟩
    simp at hx
  | @unanswered x e hmake hx =>
    refine ⟨false, _, hfalse _ rfl, iff_of_false Bool.false_ne_true ?_⟩
    rintro ⟨y, response, hy, hanswered, -⟩
    have hok := hanswered.outcome
    rw [← last_eq log hy, hx] at hok
    cases hok
  | @illegible x response e hmake hx he =>
    refine ⟨false, _, hfalse _ rfl, iff_of_false Bool.false_ne_true ?_⟩
    rintro ⟨y, response', hy, hanswered, -, hinterpret⟩
    have hok := hanswered.outcome
    rw [← last_eq log hy, hx.outcome] at hok
    rw [← Except.ok.inj hok, he] at hinterpret
    cases hinterpret
  | @answered x response echo hmake hx hecho =>
    have hreset : u.ecuReset plugin.resetType plugin.operationTimeout log =
        (.ok (echo == (plugin.resetType : ℤ)), log ++ [x]) := by
      rw [UdsUtils.ecuReset, bind_ok hrun]
      rfl
    refine ⟨_, _, by rw [reset, attempt_ok hreset], ?_⟩
    rw [beq_iff_eq]
    constructor
    · rintro rfl
      exact ⟨x, response, rfl, hx, hmake, hecho⟩
    · rintro ⟨y, response', hy, hanswered, -, hinterpret⟩
      have hok := hanswered.outcome
      rw [← last_eq log hy, hx.outcome] at hok
      rw [← Except.ok.inj hok, hecho] at hinterpret
      exact Except.ok.inj hinterpret

end Verdicts

end InVehicle.UdsPlugins
