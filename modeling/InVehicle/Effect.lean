import Mathlib.Data.Nat.Notation

/-!
# Programs with a state and exceptions

A program maps a state to a result or an exception and the state after it: the
changes made before an exception stay. `Ensures` is its specification, with one
postcondition for each way to end.
-/

set_option autoImplicit false

namespace InVehicle.Effect

def Prog (σ ε α : Type) : Type := σ → Except ε α × σ

variable {σ ε α β : Type}

namespace Prog

protected def pure (a : α) : Prog σ ε α := fun s => (.ok a, s)

protected def bind (m : Prog σ ε α) (f : α → Prog σ ε β) : Prog σ ε β := fun s =>
  match m s with
  | (.ok a, t) => f a t
  | (.error e, t) => (.error e, t)

instance : Monad (Prog σ ε) where
  pure := Prog.pure
  bind := Prog.bind

def raise (e : ε) : Prog σ ε α := fun s => (.error e, s)

def get : Prog σ ε σ := fun s => (.ok s, s)

def modify (f : σ → σ) : Prog σ ε Unit := fun s => (.ok (), f s)

/-- `try … except`: the handler starts from the state that the exception left. -/
def attempt (m : Prog σ ε α) (handler : ε → Prog σ ε α) : Prog σ ε α := fun s =>
  match m s with
  | (.ok a, t) => (.ok a, t)
  | (.error e, t) => handler e t

instance : MonadExcept ε (Prog σ ε) where
  throw := raise
  tryCatch := attempt

end Prog

theorem pure_apply (a : α) (s : σ) : (pure a : Prog σ ε α) s = (.ok a, s) := rfl

theorem bind_ok {m : Prog σ ε α} {f : α → Prog σ ε β} {s t : σ} {a : α}
    (h : m s = (.ok a, t)) : (m >>= f) s = f a t := by
  change Prog.bind m f s = _
  rw [Prog.bind, h]

theorem bind_error {m : Prog σ ε α} {f : α → Prog σ ε β} {s t : σ} {e : ε}
    (h : m s = (.error e, t)) : (m >>= f) s = (.error e, t) := by
  change Prog.bind m f s = _
  rw [Prog.bind, h]

theorem bind_apply (m : Prog σ ε α) (f : α → Prog σ ε β) (s : σ) :
    (m >>= f) s = match m s with
      | (.ok a, t) => f a t
      | (.error e, t) => (.error e, t) := rfl

theorem raise_apply (e : ε) (s : σ) : (Prog.raise e : Prog σ ε α) s = (.error e, s) := rfl

theorem get_apply (s : σ) : (Prog.get : Prog σ ε σ) s = (.ok s, s) := rfl

theorem modify_apply (f : σ → σ) (s : σ) : (Prog.modify f : Prog σ ε Unit) s = (.ok (), f s) := rfl

theorem attempt_ok {m : Prog σ ε α} {handler : ε → Prog σ ε α} {s t : σ} {a : α}
    (h : m s = (.ok a, t)) : Prog.attempt m handler s = (.ok a, t) := by
  rw [Prog.attempt, h]

theorem attempt_error {m : Prog σ ε α} {handler : ε → Prog σ ε α} {s t : σ} {e : ε}
    (h : m s = (.error e, t)) : Prog.attempt m handler s = handler e t := by
  rw [Prog.attempt, h]

theorem tryCatch_ok {m : Prog σ ε α} {handler : ε → Prog σ ε α} {s t : σ} {a : α}
    (h : m s = (.ok a, t)) : tryCatch m handler s = (.ok a, t) := attempt_ok h

theorem tryCatch_error {m : Prog σ ε α} {handler : ε → Prog σ ε α} {s t : σ} {e : ε}
    (h : m s = (.error e, t)) : tryCatch m handler s = handler e t := attempt_error h

theorem bind_eq_ok {m : Prog σ ε α} {f : α → Prog σ ε β} {s t : σ} {b : β} :
    (m >>= f) s = (.ok b, t) ↔ ∃ a u, m s = (.ok a, u) ∧ f a u = (.ok b, t) := by
  match hm : m s with
  | (.ok a, u) =>
    rw [bind_ok hm]
    constructor
    · intro h
      exact ⟨a, u, rfl, h⟩
    · rintro ⟨a', u', h, hf⟩
      cases h
      exact hf
  | (.error e, u) =>
    rw [bind_error hm]
    constructor
    · intro h
      cases h
    · rintro ⟨a', u', h, hf⟩
      cases h

theorem bind_ite_eq_true {m n : Prog σ ε Bool} {s t : σ} :
    (m >>= fun b => if b = true then n else pure false) s = (.ok true, t) ↔
      ∃ u, m s = (.ok true, u) ∧ n u = (.ok true, t) := by
  rw [bind_eq_ok]
  constructor
  · rintro ⟨b, u, hm, hn⟩
    by_cases hb : b = true
    · rw [if_pos hb] at hn
      rw [hb] at hm
      exact ⟨u, hm, hn⟩
    · rw [if_neg hb] at hn
      cases hn
  · rintro ⟨u, hm, hn⟩
    exact ⟨true, u, hm, hn⟩

/-- From a state with `P`, the program ends in `Q` or raises into `E`. -/
def Ensures (P : σ → Prop) (m : Prog σ ε α) (Q : α → σ → Prop) (E : ε → σ → Prop) : Prop :=
  ∀ s, P s → match m s with
    | (.ok a, t) => Q a t
    | (.error e, t) => E e t

variable {P A : σ → Prop} {Q Q' : α → σ → Prop} {R : β → σ → Prop} {E E' : ε → σ → Prop}

theorem ensures_pure {a : α} (h : ∀ s, P s → Q a s) :
    Ensures P (pure a : Prog σ ε α) Q E := h

theorem ensures_raise {e : ε} (h : ∀ s, P s → E e s) :
    Ensures P (Prog.raise e : Prog σ ε α) Q E := h

theorem ensures_modify {f : σ → σ} {Q : Unit → σ → Prop} (h : ∀ s, P s → Q () (f s)) :
    Ensures P (Prog.modify f : Prog σ ε Unit) Q E := h

theorem ensures_bind {m : Prog σ ε α} {f : α → Prog σ ε β} (hm : Ensures P m Q E)
    (hf : ∀ a, Ensures (Q a) (f a) R E) : Ensures P (m >>= f) R E := by
  intro s hs
  have h := hm s hs
  match hx : m s with
  | (.ok a, t) =>
    rw [hx] at h
    rw [bind_ok hx]
    exact hf a t h
  | (.error e, t) =>
    rw [hx] at h
    rw [bind_error hx]
    exact h

theorem ensures_ite {c : Prop} [Decidable c] {m n : Prog σ ε α} (hm : c → Ensures P m Q E)
    (hn : ¬ c → Ensures P n Q E) : Ensures P (if c then m else n) Q E := by
  by_cases h : c
  · rw [if_pos h]
    exact hm h
  · rw [if_neg h]
    exact hn h

theorem ensures_weaken {m : Prog σ ε α} (h : Ensures P m Q E) (hP : ∀ s, A s → P s)
    (hQ : ∀ a s, Q a s → Q' a s) (hE : ∀ e s, E e s → E' e s) : Ensures A m Q' E' := by
  intro s hs
  have hm := h s (hP s hs)
  match hx : m s with
  | (.ok a, t) =>
    rw [hx] at hm
    exact hQ a t hm
  | (.error e, t) =>
    rw [hx] at hm
    exact hE e t hm

theorem ensures_pre {m : Prog σ ε α} (h : Ensures P m Q E) (hP : ∀ s, A s → P s) :
    Ensures A m Q E :=
  ensures_weaken h hP (fun _ _ h => h) (fun _ _ h => h)

theorem ensures_fact {p : Prop} {m : Prog σ ε α} (h : p → Ensures P m Q E) :
    Ensures (fun s => P s ∧ p) m Q E := fun s hs => h hs.2 s hs.1

theorem ensures_exists {ι : Type} {A : ι → σ → Prop} {m : Prog σ ε α}
    (h : ∀ i, Ensures (A i) m Q E) : Ensures (fun s => ∃ i, A i s) m Q E := by
  rintro s ⟨i, hi⟩
  exact h i s hi

theorem Ensures.ends {m : Prog σ ε α} (h : Ensures P m Q E) {s : σ} (hs : P s) :
    (∃ a t, m s = (.ok a, t) ∧ Q a t) ∨ ∃ e t, m s = (.error e, t) ∧ E e t := by
  have hm := h s hs
  cases hx : m s with
  | mk r t =>
    rw [hx] at hm
    cases r with
    | ok a => exact .inl ⟨a, t, rfl, hm⟩
    | error e => exact .inr ⟨e, t, rfl, hm⟩

theorem ensures_state {m : Prog σ ε α} {R : σ → Prop} (h : Ensures P m (fun _ => R) (fun _ => R))
    {s : σ} (hs : P s) : R (m s).2 := by
  have hm := h s hs
  match hx : m s with
  | (.ok a, t) => rwa [hx] at hm
  | (.error e, t) => rwa [hx] at hm

/-- The program keeps `I` however it ends. -/
def Keeps (I : σ → Prop) (m : Prog σ ε α) : Prop := Ensures I m (fun _ => I) (fun _ => I)

theorem keeps_get (I : σ → Prop) : Keeps I (Prog.get : Prog σ ε σ) := fun _ h => h

theorem keeps_iff {I : σ → Prop} {m : Prog σ ε α} : Keeps I m ↔ ∀ s, I s → I (m s).2 := by
  constructor
  · exact fun h s hs => ensures_state h hs
  · intro h s hs
    have hm := h s hs
    match hx : m s with
    | (.ok a, t) => rwa [hx] at hm
    | (.error e, t) => rwa [hx] at hm

def Blind (m : Prog σ ε α) : Prop := ∀ s t, (m s).1 = (m t).1

theorem blind_bind {m : Prog σ ε α} {f : α → Prog σ ε β} (hm : Blind m) (hf : ∀ a, Blind (f a)) :
    Blind (m >>= f) := by
  intro s t
  have h := hm s t
  match hs : m s, ht : m t with
  | (.ok a, s'), (.ok b, t') =>
    rw [hs, ht] at h
    cases h
    rw [bind_ok hs, bind_ok ht]
    exact hf a s' t'
  | (.error e, s'), (.error e', t') =>
    rw [hs, ht] at h
    cases h
    rw [bind_error hs, bind_error ht]
  | (.ok a, s'), (.error e, t') =>
    rw [hs, ht] at h
    cases h
  | (.error e, s'), (.ok a, t') =>
    rw [hs, ht] at h
    cases h

theorem blind_ite {c : Prop} [Decidable c] {m n : Prog σ ε α} (hm : Blind m) (hn : Blind n) :
    Blind (if c then m else n) := by
  by_cases h : c
  · rwa [if_pos h]
  · rwa [if_neg h]

end InVehicle.Effect
