import Mathlib.Algebra.GroupWithZero.Nat

/-!
# Runs of a labelled transition system

A step carries an event or is internal. A run lists the events of its steps
and forgets the internal ones.
-/

set_option autoImplicit false

namespace InVehicle.Runs

variable {σ ε : Type}

inductive Run (step : σ → Option ε → σ → Prop) : σ → List ε → σ → Prop
  | nil (s : σ) : Run step s [] s
  | internal {s t u : σ} {es : List ε} (h : step s none t) (rest : Run step t es u) :
      Run step s es u
  | event {s t u : σ} {e : ε} {es : List ε} (h : step s (some e) t) (rest : Run step t es u) :
      Run step s (e :: es) u

variable {step : σ → Option ε → σ → Prop}

theorem run_append {s t u : σ} {es fs : List ε} (h : Run step s es t) (h' : Run step t fs u) :
    Run step s (es ++ fs) u := by
  induction h with
  | nil s => exact h'
  | internal hs _ ih => exact .internal hs (ih h')
  | event hs _ ih => exact .event hs (ih h')

theorem run_split {s u : σ} (es fs : List ε) (h : Run step s (es ++ fs) u) :
    ∃ t, Run step s es t ∧ Run step t fs u := by
  generalize he : es ++ fs = gs at h
  induction h generalizing es with
  | nil s =>
    obtain ⟨rfl, rfl⟩ := List.append_eq_nil_iff.mp he
    exact ⟨s, .nil s, .nil s⟩
  | internal hs _ ih =>
    obtain ⟨t, ht, hu⟩ := ih es he
    exact ⟨t, .internal hs ht, hu⟩
  | @event s t u e gs hs rest ih =>
    cases es with
    | nil =>
      simp only [List.nil_append] at he
      subst he
      exact ⟨s, .nil s, .event hs rest⟩
    | cons e' es =>
      obtain ⟨rfl, htail⟩ := List.cons.inj he
      obtain ⟨t', ht, hu⟩ := ih es htail
      exact ⟨t', .event hs ht, hu⟩

theorem run_at {s u : σ} {e : ε} {es fs : List ε} (h : Run step s (es ++ e :: fs) u) :
    ∃ t t', Run step s es t ∧ step t (some e) t' ∧ Run step t' fs u := by
  generalize he : es ++ e :: fs = gs at h
  induction h generalizing es with
  | nil s => simp at he
  | internal hs _ ih =>
    obtain ⟨t, t', ht, he, hu⟩ := ih he
    exact ⟨t, t', .internal hs ht, he, hu⟩
  | @event s t u e' gs hs rest ih =>
    cases es with
    | nil =>
      obtain ⟨rfl, rfl⟩ := List.cons.inj he
      exact ⟨s, t, .nil s, hs, rest⟩
    | cons e'' es =>
      obtain ⟨rfl, htail⟩ := List.cons.inj he
      obtain ⟨t₁, t₂, ht, he', hu⟩ := ih htail
      exact ⟨t₁, t₂, .event hs ht, he', hu⟩

theorem run_invariant (I : σ → Prop) (hstep : ∀ s l t, I s → step s l t → I t)
    {s t : σ} {es : List ε} (h : Run step s es t) (hs : I s) : I t := by
  induction h with
  | nil s => exact hs
  | internal h _ ih => exact ih (hstep _ _ _ hs h)
  | event h _ ih => exact ih (hstep _ _ _ hs h)

theorem run_history (I : List ε → σ → Prop)
    (hinternal : ∀ es s t, I es s → step s none t → I es t)
    (hevent : ∀ es s e t, I es s → step s (some e) t → I (es ++ [e]) t)
    {s t : σ} {es before : List ε} (h : Run step s es t) (hs : I before s) :
    I (before ++ es) t := by
  induction h generalizing before with
  | nil s =>
    rw [List.append_nil]
    exact hs
  | internal h _ ih => exact ih (hinternal _ _ _ hs h)
  | event h _ ih =>
    rw [List.append_cons]
    exact ih (hevent _ _ _ _ hs h)

theorem run_count (m : σ → ℕ) (c : Option ε → ℕ) (I : σ → Prop)
    (hI : ∀ s l t, I s → step s l t → I t) (hnone : c none = 0)
    (hstep : ∀ s l t, I s → step s l t → m t = m s + c l)
    {s t : σ} {es : List ε} (h : Run step s es t) (hs : I s) :
    m t = m s + (es.map fun e => c (some e)).sum := by
  induction h with
  | nil s => rfl
  | internal h _ ih => rw [ih (hI _ _ _ hs h), hstep _ _ _ hs h, hnone, Nat.add_zero]
  | event h _ ih =>
    rw [ih (hI _ _ _ hs h), hstep _ _ _ hs h, List.map_cons, List.sum_cons, Nat.add_assoc]

end InVehicle.Runs
