import Mathlib.Data.List.Basic

/-!
# Histories of calls

An object is used through calls. A call carries the answers it gets from outside,
so that the state before it and the call decide the state after it, whether it
returns or raises.
-/

set_option autoImplicit false

namespace InVehicle.Histories

variable {σ α : Type} (call : σ → α → σ)

def run (s : σ) (as : List α) : σ := as.foldl call s

/-- Every call meets `C` in the state it is made in. -/
def Each (C : σ → α → Prop) : σ → List α → Prop
  | _, [] => True
  | s, a :: as => C s a ∧ Each C (call s a) as

instance decidableEach {C : σ → α → Prop} [∀ s a, Decidable (C s a)] :
    ∀ s as, Decidable (Each call C s as)
  | _, [] => isTrue trivial
  | s, a :: as =>
    have := decidableEach (C := C) (call s a) as
    inferInstanceAs (Decidable (_ ∧ _))

/-- Every state that the history goes through has `P`. -/
def Throughout (P : σ → Prop) (s : σ) (as : List α) : Prop :=
  ∀ before, before <+: as → P (run call s before)

variable {call} {C Q : σ → α → Prop} {I P : σ → Prop} {s : σ}

theorem throughout_cons (a : α) (as : List α) :
    Throughout call P s (a :: as) ↔ P s ∧ Throughout call P (call s a) as := by
  constructor
  · intro h
    refine ⟨h [] List.nil_prefix, fun before hb => ?_⟩
    exact h (a :: before) (List.cons_prefix_cons.mpr ⟨rfl, hb⟩)
  · rintro ⟨hs, h⟩ before hb
    cases before with
    | nil => exact hs
    | cons b before =>
      obtain ⟨rfl, hrest⟩ := List.cons_prefix_cons.mp hb
      exact h before hrest

/-- Calls that meet `C` keep the invariant, and under the invariant `C` decides. -/
theorem each_iff_each (hI : ∀ s a, I s → C s a → I (call s a))
    (hQ : ∀ s a, I s → (Q s a ↔ C s a)) (hs : I s) (as : List α) :
    Each call Q s as ↔ Each call C s as := by
  induction as generalizing s with
  | nil => exact Iff.rfl
  | cons a as ih =>
    rw [Each, Each, hQ s a hs]
    exact and_congr_right fun ha => ih (hI s a hs ha)

theorem each_congr {R : σ → α → Prop} (as : List α) (hR : Each call R s as)
    (hQ : ∀ s a, R s a → (Q s a ↔ C s a)) : Each call Q s as ↔ Each call C s as := by
  induction as generalizing s with
  | nil => exact Iff.rfl
  | cons a as ih => exact and_congr (hQ s a hR.1) (ih hR.2)

/-- The first call that does not meet `C` leads to a state without `P`. -/
theorem throughout_iff_each (hI : ∀ s a, I s → C s a → I (call s a)) (hP : ∀ s, I s → P s)
    (hbad : ∀ s a, I s → ¬ C s a → ¬ P (call s a)) (hs : I s) (as : List α) :
    Throughout call P s as ↔ Each call C s as := by
  induction as generalizing s with
  | nil =>
    simp only [Each, iff_true]
    rintro before hb
    rw [List.prefix_nil.mp hb]
    exact hP s hs
  | cons a as ih =>
    rw [throughout_cons, Each, and_iff_right (hP s hs)]
    by_cases ha : C s a
    · rw [ih (hI s a hs ha), and_iff_right ha]
    · rw [iff_false_right (fun h => ha h.1)]
      exact fun h => hbad s a hs ha (h [] List.nil_prefix)

end InVehicle.Histories
