import InVehicle.Effect
import Mathlib.Order.Basic
import Mathlib.Order.Lattice

/-!
# Programs that wait

Such a program is run for a while: then it is done, or it waits in an operation that
takes its time. With more time it comes further, but for an operation that is stuck.
-/

set_option autoImplicit false

namespace InVehicle.Waiting
open InVehicle.Effect

inductive Reached (σ ε ω α : Type) where
  | done (x : Except ε α × σ)
  | waits (w : ω) (s : σ)
  deriving DecidableEq

def Timed (σ ε ω α : Type) : Type := σ → Reached σ ε ω α

variable {σ ε ω α β : Type}

namespace Timed

protected def pure (a : α) : Timed σ ε ω α := fun s => .done (.ok a, s)

protected def bind (m : Timed σ ε ω α) (f : α → Timed σ ε ω β) : Timed σ ε ω β := fun s =>
  match m s with
  | .done (.ok a, t) => f a t
  | .done (.error e, t) => .done (.error e, t)
  | .waits w t => .waits w t

instance : Monad (Timed σ ε ω) where
  pure := Timed.pure
  bind := Timed.bind

def raise (e : ε) : Timed σ ε ω α := fun s => .done (.error e, s)

/-- `try … except`: no handler catches an operation that waits. -/
def attempt (m : Timed σ ε ω α) (handler : ε → Timed σ ε ω α) : Timed σ ε ω α := fun s =>
  match m s with
  | .done (.ok a, t) => .done (.ok a, t)
  | .done (.error e, t) => handler e t
  | .waits w t => .waits w t

instance : MonadExcept ε (Timed σ ε ω) where
  throw := raise
  tryCatch := attempt

end Timed

section Applied
variable {m : Timed σ ε ω α} {f : α → Timed σ ε ω β} {handler : ε → Timed σ ε ω α} {s t : σ}
  {a : α} {e : ε} {w : ω}

theorem bind_done (h : m s = .done (.ok a, t)) : (m >>= f) s = f a t := by
  change Timed.bind m f s = _
  rw [Timed.bind, h]

theorem bind_raised (h : m s = .done (.error e, t)) : (m >>= f) s = .done (.error e, t) := by
  change Timed.bind m f s = _
  rw [Timed.bind, h]

theorem bind_waits (h : m s = .waits w t) : (m >>= f) s = .waits w t := by
  change Timed.bind m f s = _
  rw [Timed.bind, h]

theorem tryCatch_done (h : m s = .done (.ok a, t)) :
    tryCatch m handler s = .done (.ok a, t) := by
  change Timed.attempt m handler s = _
  rw [Timed.attempt, h]

theorem tryCatch_raised (h : m s = .done (.error e, t)) :
    tryCatch m handler s = handler e t := by
  change Timed.attempt m handler s = _
  rw [Timed.attempt, h]

theorem tryCatch_waits (h : m s = .waits w t) : tryCatch m handler s = .waits w t := by
  change Timed.attempt m handler s = _
  rw [Timed.attempt, h]

end Applied

/-- What more time does not change. -/
def Final (stuck : ω → σ → Prop) : Reached σ ε ω α → Prop
  | .done _ => True
  | .waits w s => stuck w s

/-- The programs `p n` are one program with more and more time. It comes to its end or is
stuck, and its end is that of the programs `q n`, which do not wait. -/
structure Approaches (stuck : ω → σ → Prop) (p : ℕ → Timed σ ε ω α) (q : ℕ → Prog σ ε α) :
    Prop where
  keeps : ∀ {n m s}, n ≤ m → Final stuck (p n s) → p m s = p n s
  comes : ∀ s, ∃ n, Final stuck (p n s)
  agrees : ∀ {n s x}, p n s = .done x → q n s = x

section Rules
variable {stuck : ω → σ → Prop} {p : ℕ → Timed σ ε ω α} {q : ℕ → Prog σ ε α}
  {f : ℕ → α → Timed σ ε ω β} {g : ℕ → α → Prog σ ε β}

theorem approaches_pure (a : α) :
    Approaches stuck (fun _ => (pure a : Timed σ ε ω α)) fun _ => (pure a : Prog σ ε α) where
  keeps _ _ := rfl
  comes _ := ⟨0, trivial⟩
  agrees h := by
    cases h
    rfl

theorem approaches_throw (e : ε) :
    Approaches stuck (fun _ => (throw e : Timed σ ε ω α)) fun _ => (throw e : Prog σ ε α) where
  keeps _ _ := rfl
  comes _ := ⟨0, trivial⟩
  agrees h := by
    cases h
    rfl

theorem approaches_ofExcept (x : Except ε α) :
    Approaches stuck (fun _ => (ofExcept x : Timed σ ε ω α)) fun _ => (ofExcept x : Prog σ ε α) := by
  cases x with
  | ok a => exact approaches_pure a
  | error e => exact approaches_throw e

theorem approaches_bind (hp : Approaches stuck p q) (hf : ∀ a, Approaches stuck (f · a) (g · a)) :
    Approaches stuck (fun n => p n >>= f n) fun n => q n >>= g n where
  keeps {n m s} hle h := by
    cases hs : p n s with
    | waits w t =>
      rw [bind_waits hs] at h ⊢
      exact bind_waits ((hp.keeps hle (hs ▸ h)).trans hs)
    | done x =>
      have hm : p m s = .done x := (hp.keeps hle (hs ▸ trivial)).trans hs
      obtain ⟨e | a, t⟩ := x
      · rw [bind_raised hs, bind_raised hm]
      · rw [bind_done hs] at h ⊢
        rw [bind_done hm]
        exact (hf a).keeps hle h
  comes s := by
    obtain ⟨n, hn⟩ := hp.comes s
    cases hs : p n s with
    | waits w t =>
      rw [hs] at hn
      refine ⟨n, ?_⟩
      rw [bind_waits hs]
      exact hn
    | done x =>
      obtain ⟨e | a, t⟩ := x
      · refine ⟨n, ?_⟩
        rw [bind_raised hs]
        trivial
      · obtain ⟨k, hk⟩ := (hf a).comes t
        refine ⟨max n k, ?_⟩
        rw [bind_done ((hp.keeps (le_max_left n k) (hs ▸ trivial)).trans hs),
          (hf a).keeps (le_max_right n k) hk]
        exact hk
  agrees {n s x} h := by
    cases hs : p n s with
    | waits w t =>
      rw [bind_waits hs] at h
      cases h
    | done y =>
      have hq := hp.agrees hs
      obtain ⟨e | a, t⟩ := y
      · rw [bind_raised hs] at h
        rw [bind_error hq]
        exact Reached.done.inj h
      · rw [bind_done hs] at h
        rw [bind_ok hq]
        exact (hf a).agrees h

theorem approaches_tryCatch {handler : ℕ → ε → Timed σ ε ω α} {handler' : ℕ → ε → Prog σ ε α}
    (hp : Approaches stuck p q) (hh : ∀ e, Approaches stuck (handler · e) (handler' · e)) :
    Approaches stuck (fun n => tryCatch (p n) (handler n))
      fun n => tryCatch (q n) (handler' n) where
  keeps {n m s} hle h := by
    cases hs : p n s with
    | waits w t =>
      rw [tryCatch_waits hs] at h ⊢
      exact tryCatch_waits ((hp.keeps hle (hs ▸ h)).trans hs)
    | done x =>
      have hm : p m s = .done x := (hp.keeps hle (hs ▸ trivial)).trans hs
      obtain ⟨e | a, t⟩ := x
      · rw [tryCatch_raised hs] at h ⊢
        rw [tryCatch_raised hm]
        exact (hh e).keeps hle h
      · rw [tryCatch_done hs, tryCatch_done hm]
  comes s := by
    obtain ⟨n, hn⟩ := hp.comes s
    cases hs : p n s with
    | waits w t =>
      rw [hs] at hn
      refine ⟨n, ?_⟩
      rw [tryCatch_waits hs]
      exact hn
    | done x =>
      obtain ⟨e | a, t⟩ := x
      · obtain ⟨k, hk⟩ := (hh e).comes t
        refine ⟨max n k, ?_⟩
        rw [tryCatch_raised ((hp.keeps (le_max_left n k) (hs ▸ trivial)).trans hs),
          (hh e).keeps (le_max_right n k) hk]
        exact hk
      · refine ⟨n, ?_⟩
        rw [tryCatch_done hs]
        trivial
  agrees {n s x} h := by
    cases hs : p n s with
    | waits w t =>
      rw [tryCatch_waits hs] at h
      cases h
    | done y =>
      have hq := hp.agrees hs
      obtain ⟨e | a, t⟩ := y
      · rw [tryCatch_raised hs] at h
        rw [tryCatch_error hq]
        exact (hh e).agrees h
      · rw [tryCatch_done hs] at h
        rw [tryCatch_ok hq]
        exact Reached.done.inj h

theorem approaches_ite {c : Prop} [Decidable c] {p' : ℕ → Timed σ ε ω α} {q' : ℕ → Prog σ ε α}
    (hp : Approaches stuck p q) (hp' : Approaches stuck p' q') :
    Approaches stuck (fun n => if c then p n else p' n) fun n => if c then q n else q' n := by
  by_cases h : c
  · simpa only [if_pos h] using hp
  · simpa only [if_neg h] using hp'

variable {s : σ} {n m : ℕ} {x y : Except ε α × σ}

theorem Approaches.unique (h : Approaches stuck p q) (hx : p n s = .done x)
    (hy : p m s = .done y) : x = y := by
  have hn := (h.keeps (le_max_left n m) (hx ▸ trivial)).trans hx
  have hm := (h.keeps (le_max_right n m) (hy ▸ trivial)).trans hy
  exact Reached.done.inj (hn.symm.trans hm)

theorem Approaches.ends_iff (h : Approaches stuck p q) (s : σ) :
    (∃ n x, p n s = .done x) ↔ ∀ n w t, p n s = .waits w t → ¬ stuck w t := by
  constructor
  · rintro ⟨n, x, hx⟩ m w t hw hstuck
    have hn := (h.keeps (le_max_left n m) (hx ▸ trivial)).trans hx
    have hm := (h.keeps (le_max_right n m) (hw ▸ hstuck)).trans hw
    cases hn.symm.trans hm
  · intro hfree
    obtain ⟨n, hn⟩ := h.comes s
    cases hs : p n s with
    | done x => exact ⟨n, x, hs⟩
    | waits w t =>
      rw [hs] at hn
      exact absurd hn (hfree n w t hs)

end Rules

end InVehicle.Waiting
