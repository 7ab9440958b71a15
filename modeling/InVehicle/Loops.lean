import Mathlib.Data.Nat.Notation
import Mathlib.Data.Nat.Find

/-!
# Loops without a counter

The body of such a loop takes one input and the state, and goes on with another
state or ends the loop with a result. The inputs never run out, so that the loop has
a state after every number of passes and may have no end.
-/

set_option autoImplicit false

namespace InVehicle.Loops

inductive Pass (σ ρ : Type) where
  | next (s : σ)
  | done (r : ρ)
  deriving DecidableEq, Repr

variable {ι σ ρ : Type}

def resume (body : ι → σ → Pass σ ρ) (i : ι) : Pass σ ρ → Pass σ ρ
  | .next s => body i s
  | .done r => .done r

def after (body : ι → σ → Pass σ ρ) (input : ℕ → ι) (s : σ) : ℕ → Pass σ ρ
  | 0 => .next s
  | n+1 => resume body (input n) (after body input s n)

def Returns (body : ι → σ → Pass σ ρ) (input : ℕ → ι) (s : σ) (r : ρ) : Prop :=
  ∃ n, after body input s n = .done r

def Ends (body : ι → σ → Pass σ ρ) (input : ℕ → ι) (s : σ) : Prop := ∃ r, Returns body input s r

section Rules
variable {body : ι → σ → Pass σ ρ} {input : ℕ → ι} {s t : σ} {r r' : ρ} {n m : ℕ}

theorem after_succ_next_iff :
    after body input s (n + 1) = .next t ↔
      ∃ u, after body input s n = .next u ∧ body (input n) u = .next t := by
  rw [after]
  cases after body input s n with
  | next u => simp [resume]
  | done r => simp [resume]

theorem after_done_mono (h : after body input s n = .done r) (hle : n ≤ m) :
    after body input s m = .done r := by
  induction hle with
  | refl => exact h
  | step _ ih => rw [after, ih, resume]

theorem returns_unique (h : Returns body input s r) (h' : Returns body input s r') : r = r' := by
  obtain ⟨n, hn⟩ := h
  obtain ⟨m, hm⟩ := h'
  have hmax := after_done_mono hn (Nat.le_max_left n m)
  rw [after_done_mono hm (Nat.le_max_right n m)] at hmax
  exact (Pass.done.inj hmax).symm

theorem returns_of_first (h : body (input 0) s = .done r) :
    Returns body input s r' ↔ r' = r := by
  have hreturns : Returns body input s r := ⟨1, h⟩
  constructor
  · exact fun h' => returns_unique h' hreturns
  · rintro rfl
    exact hreturns

theorem returns_iff_last :
    Returns body input s r ↔
      ∃ n t, after body input s n = .next t ∧ body (input n) t = .done r := by
  constructor
  · rintro ⟨n, hn⟩
    induction n with
    | zero => cases hn
    | succ n ih =>
      cases h : after body input s n with
      | next t =>
        rw [after, h] at hn
        exact ⟨n, t, h, hn⟩
      | done r' =>
        rw [after, h] at hn
        exact ih (h.trans hn)
  · rintro ⟨n, t, hn, ht⟩
    refine ⟨n + 1, ?_⟩
    rw [after, hn]
    exact ht

theorem after_related {τ ρ' : Type} {body' : ι → τ → Pass τ ρ'} {s' : τ}
    (R : Pass σ ρ → Pass τ ρ' → Prop) (hstart : R (.next s) (.next s'))
    (hpass : ∀ i p q, R p q → R (resume body i p) (resume body' i q)) (n : ℕ) :
    R (after body input s n) (after body' input s' n) := by
  induction n with
  | zero => exact hstart
  | succ n ih => exact hpass (input n) _ _ ih

end Rules

/-! ## Loops that keep no state -/

def stateless (body : ι → Option ρ) (i : ι) (_ : Unit) : Pass Unit ρ :=
  match body i with
  | some r => .done r
  | none => .next ()

section Stateless
variable (body : ι → Option ρ) (input : ℕ → ι)

theorem stateless_next_iff (i : ι) (u v : Unit) :
    stateless body i u = .next v ↔ body i = none := by
  rw [stateless]
  cases body i <;> simp

theorem stateless_done_iff (i : ι) (u : Unit) (r : ρ) :
    stateless body i u = .done r ↔ body i = some r := by
  rw [stateless]
  cases body i <;> simp

theorem stateless_running_iff (n : ℕ) :
    after (stateless body) input () n = .next () ↔ ∀ i < n, body (input i) = none := by
  induction n with
  | zero => simp [after]
  | succ n ih =>
    rw [after_succ_next_iff, Nat.forall_lt_succ_right, ← ih]
    simp only [stateless_next_iff]
    exact ⟨fun ⟨_, h⟩ => h, fun h => ⟨(), h⟩⟩

theorem stateless_returns_iff (r : ρ) :
    Returns (stateless body) input () r ↔
      ∃ n, (∀ i < n, body (input i) = none) ∧ body (input n) = some r := by
  rw [returns_iff_last]
  simp only [stateless_done_iff, ← stateless_running_iff]
  exact exists_congr fun n => ⟨fun ⟨_, h⟩ => h, fun h => ⟨(), h⟩⟩

variable {body input}

theorem stateless_returns_some {r r' : ρ} (h : body (input 0) = some r') :
    Returns (stateless body) input () r ↔ r' = r := by
  rw [stateless_returns_iff]
  constructor
  · rintro ⟨n, hbefore, hn⟩
    cases n with
    | zero => exact Option.some_inj.mp (h.symm.trans hn)
    | succ n => exact absurd (h.symm.trans (hbefore 0 n.succ_pos)) (by simp)
  · rintro rfl
    exact ⟨0, fun i hi => absurd hi (Nat.not_lt_zero i), h⟩

theorem stateless_returns_none {r : ρ} (h : body (input 0) = none) :
    Returns (stateless body) input () r ↔
      Returns (stateless body) (fun n => input (n + 1)) () r := by
  rw [stateless_returns_iff, stateless_returns_iff]
  constructor
  · rintro ⟨n, hbefore, hn⟩
    cases n with
    | zero => exact absurd (h.symm.trans hn) (by simp)
    | succ n => exact ⟨n, fun i hi => hbefore (i + 1) (Nat.succ_lt_succ hi), hn⟩
  · rintro ⟨n, hbefore, hn⟩
    refine ⟨n + 1, ?_, hn⟩
    intro i hi
    cases i with
    | zero => exact h
    | succ i => exact hbefore i (Nat.lt_of_succ_lt_succ hi)

variable (body input)

theorem stateless_ends_iff :
    Ends (stateless body) input () ↔ ∃ n r, body (input n) = some r := by
  constructor
  · rintro ⟨r, hr⟩
    obtain ⟨n, -, hn⟩ := (stateless_returns_iff body input r).mp hr
    exact ⟨n, r, hn⟩
  · intro h
    classical
    obtain ⟨r, hr⟩ := Nat.find_spec h
    refine ⟨r, (stateless_returns_iff body input r).mpr ⟨Nat.find h, ?_, hr⟩⟩
    intro i hi
    have hmin := Nat.find_min h hi
    rw [not_exists] at hmin
    exact Option.eq_none_iff_forall_ne_some.mpr hmin

end Stateless

end InVehicle.Loops
