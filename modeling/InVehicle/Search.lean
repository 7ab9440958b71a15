import Mathlib.Data.List.Basic
import Mathlib.Data.Nat.Find
import Mathlib.Data.Nat.Notation

/-!
# Searching a list for another

The first place at which a list stands in another one, from a given index on.
-/

set_option autoImplicit false

namespace InVehicle.Search

variable {α : Type}

/-- `sub` stands in `xs` at the index `k`. -/
def At (sub xs : List α) (k : ℕ) : Prop := ∃ a b, xs = a ++ (sub ++ b) ∧ a.length = k

theorem at_zero_iff (sub xs : List α) : At sub xs 0 ↔ sub <+: xs := by
  constructor
  · rintro ⟨a, b, rfl, ha⟩
    rw [List.length_eq_zero_iff.mp ha]
    exact List.prefix_append sub b
  · rintro ⟨b, rfl⟩
    exact ⟨[], b, rfl, rfl⟩

theorem at_cons_iff (sub : List α) (x : α) (xs : List α) (k : ℕ) :
    At sub (x :: xs) (k + 1) ↔ At sub xs k := by
  constructor
  · rintro ⟨a, b, h, ha⟩
    cases a with
    | nil => cases ha
    | cons y a =>
      obtain ⟨rfl, rfl⟩ := List.cons.inj h
      exact ⟨a, b, rfl, Nat.succ.inj ha⟩
  · rintro ⟨a, b, rfl, rfl⟩
    exact ⟨x :: a, b, rfl, rfl⟩

/-- What stands behind does not matter where `sub` ends before it. -/
theorem at_append_iff (sub xs ys : List α) (k : ℕ) (h : k + sub.length ≤ xs.length) :
    At sub (xs ++ ys) k ↔ At sub xs k := by
  constructor
  · rintro ⟨a, b, hab, rfl⟩
    rw [← List.append_assoc] at hab
    have hprefix : a ++ sub <+: xs := by
      apply List.prefix_of_prefix_length_le (List.prefix_append _ b)
        (hab ▸ List.prefix_append xs ys)
      rwa [List.length_append]
    obtain ⟨c, hc⟩ := hprefix
    exact ⟨a, c, by rw [← hc, List.append_assoc], rfl⟩
  · rintro ⟨a, b, rfl, rfl⟩
    exact ⟨a, b ++ ys, by simp only [List.append_assoc], rfl⟩

theorem at_append_left_iff (sub xs ys : List α) (k : ℕ) :
    At sub (xs ++ ys) (xs.length + k) ↔ At sub ys k := by
  induction xs with
  | nil => rw [List.nil_append, List.length_nil, Nat.zero_add]
  | cons x xs ih =>
    rw [List.cons_append, List.length_cons, Nat.succ_add]
    exact (at_cons_iff sub x _ _).trans ih

theorem at_length (sub xs ys : List α) : At sub (xs ++ (sub ++ ys)) xs.length :=
  ⟨xs, ys, rfl, rfl⟩

theorem At.drop_eq {sub xs : List α} {k : ℕ} (h : At sub xs k) :
    xs.drop k = sub ++ xs.drop (k + sub.length) := by
  obtain ⟨a, b, rfl, rfl⟩ := h
  rw [List.drop_left, ← List.append_assoc, ← List.length_append, List.drop_left]

theorem At.le {sub xs : List α} {k : ℕ} (h : At sub xs k) : k + sub.length ≤ xs.length := by
  obtain ⟨a, b, rfl, rfl⟩ := h
  simp only [List.length_append]
  omega

theorem at_iff (sub xs : List α) (k : ℕ) : At sub xs k ↔ k ≤ xs.length ∧ sub <+: xs.drop k := by
  constructor
  · intro h
    have hle := h.le
    exact ⟨by omega, h.drop_eq ▸ List.prefix_append sub _⟩
  · rintro ⟨hk, b, hb⟩
    exact ⟨xs.take k, b, by rw [hb, List.take_append_drop], List.length_take_of_le hk⟩

variable [DecidableEq α]

instance (sub xs : List α) (k : ℕ) : Decidable (At sub xs k) :=
  decidable_of_iff _ (at_iff sub xs k).symm

/-- `find`: the first index at which `sub` stands, `none` for the -1 of Python. -/
def find (sub : List α) : List α → Option ℕ
  | [] => if sub = [] then some 0 else none
  | x :: xs => if sub.isPrefixOf (x :: xs) then some 0 else (find sub xs).map (· + 1)

def findFrom (sub xs : List α) (start : ℕ) : Option ℕ :=
  if start ≤ xs.length then (find sub (xs.drop start)).map (start + ·) else none

theorem find_cons (sub : List α) (x : α) (xs : List α) :
    find sub (x :: xs) = if sub <+: x :: xs then some 0 else (find sub xs).map (· + 1) := by
  rw [find]
  simp only [List.isPrefixOf_iff_prefix]

/-- The index that is found is the first one at which `sub` stands. -/
theorem find_nil_eq_some_iff (sub : List α) (k : ℕ) :
    find sub [] = some k ↔ At sub [] k ∧ ∀ j < k, ¬ At sub [] j := by
  constructor
  · intro h
    rw [find] at h
    split_ifs at h with hsub
    cases h
    exact ⟨(at_zero_iff sub []).mpr (hsub ▸ List.prefix_rfl), fun j hj => absurd hj (by omega)⟩
  · rintro ⟨⟨a, b, hab, rfl⟩, -⟩
    obtain ⟨rfl, hsub⟩ := List.append_eq_nil_iff.mp hab.symm
    rw [find, if_pos (List.append_eq_nil_iff.mp hsub).1]
    rfl

theorem find_eq_some_iff (sub xs : List α) (k : ℕ) :
    find sub xs = some k ↔ At sub xs k ∧ ∀ j < k, ¬ At sub xs j := by
  induction xs generalizing k with
  | nil => exact find_nil_eq_some_iff sub k
  | cons x xs ih =>
    rw [find_cons]
    by_cases hp : sub <+: x :: xs
    · rw [if_pos hp]
      have h0 := (at_zero_iff sub (x :: xs)).mpr hp
      constructor
      · rintro ⟨⟩
        exact ⟨h0, fun j hj => absurd hj (by omega)⟩
      · rintro ⟨-, hfirst⟩
        cases k with
        | zero => rfl
        | succ k => exact absurd h0 (hfirst 0 (by omega))
    · rw [if_neg hp]
      have h0 : ¬ At sub (x :: xs) 0 := fun h => hp ((at_zero_iff sub _).mp h)
      cases k with
      | zero => simp [h0]
      | succ k =>
        have hk : (find sub xs).map (· + 1) = some (k + 1) ↔ find sub xs = some k := by
          cases find sub xs <;> simp
        rw [hk, ih k, at_cons_iff, Nat.forall_lt_succ_left, and_iff_right h0]
        simp only [at_cons_iff]

theorem find_eq_none_iff (sub xs : List α) : find sub xs = none ↔ ∀ k, ¬ At sub xs k := by
  constructor
  · intro h
    classical
    by_contra hcontra
    push Not at hcontra
    have hfind := (find_eq_some_iff sub xs (Nat.find hcontra)).mpr
      ⟨Nat.find_spec hcontra, fun j hj => Nat.find_min hcontra hj⟩
    rw [h] at hfind
    cases hfind
  · intro h
    rw [Option.eq_none_iff_forall_ne_some]
    intro k hk
    exact h k ((find_eq_some_iff sub xs k).mp hk).1

theorem find_prefix (sub ys : List α) : find sub (sub ++ ys) = some 0 :=
  (find_eq_some_iff sub _ 0).mpr ⟨⟨[], ys, rfl, rfl⟩, fun j hj => absurd hj (by omega)⟩

theorem find_append_iff (sub xs ys : List α) :
    find sub (xs ++ (sub ++ ys)) = some xs.length ↔ find sub (xs ++ sub) = some xs.length := by
  have hend : At sub (xs ++ sub) xs.length := ⟨xs, [], by rw [List.append_nil], rfl⟩
  rw [find_eq_some_iff, find_eq_some_iff, ← List.append_assoc]
  have hat (k : ℕ) (hk : k ≤ xs.length) : At sub (xs ++ sub ++ ys) k ↔ At sub (xs ++ sub) k := by
    apply at_append_iff
    rw [List.length_append]
    omega
  rw [hat _ le_rfl]
  apply and_congr_right
  intro _
  apply forall₂_congr
  intro j hj
  exact not_congr (hat j (by omega))

theorem find_of_at {sub xs : List α} {n : ℕ} (h : At sub xs n) :
    ∃ k, find sub xs = some k ∧ k ≤ n := by
  cases hk : find sub xs with
  | none => exact absurd h ((find_eq_none_iff sub xs).mp hk n)
  | some k =>
    refine ⟨k, rfl, ?_⟩
    by_contra hlt
    exact ((find_eq_some_iff sub xs k).mp hk).2 n (by omega) h

theorem findFrom_eq (sub xs : List α) (start : ℕ) (h : sub ≠ []) :
    findFrom sub xs start = (find sub (xs.drop start)).map (start + ·) := by
  by_cases hs : start ≤ xs.length
  · rw [findFrom, if_pos hs]
  · rw [findFrom, if_neg hs, List.drop_eq_nil_of_le (by omega), find, if_neg h]
    rfl

end InVehicle.Search
