import Mathlib.Data.List.Sort
import Mathlib.Data.Nat.Notation
import Mathlib.Order.Defs.LinearOrder

/-!
# Sorted lists of numbers

A sorted list of numbers below a bound goes through the numbers below it and has
each of them as often as it is in the list.
-/

set_option autoImplicit false

namespace InVehicle.SortedLists

/-- The numbers below `n` in order, `i` of them `f i` times. -/
def expand (f : ℕ → ℕ) (n : ℕ) : List ℕ := (List.range n).flatMap fun i => List.replicate (f i) i

variable (f : ℕ → ℕ) (n : ℕ)

theorem expand_succ : expand f (n + 1) = expand f n ++ List.replicate (f n) n := by
  rw [expand, List.range_succ, List.flatMap_append, List.flatMap_singleton, expand]

theorem expand_congr {f f' : ℕ → ℕ} (h : ∀ i < n, f i = f' i) : expand f n = expand f' n := by
  apply List.flatMap_congr
  intro i hi
  rw [h i (List.mem_range.mp hi)]

theorem lt_of_mem_expand {a : ℕ} (h : a ∈ expand f n) : a < n := by
  obtain ⟨i, hi, ha⟩ := List.mem_flatMap.mp h
  rw [(List.mem_replicate.mp ha).2]
  exact List.mem_range.mp hi

theorem count_expand (a : ℕ) : (expand f n).count a = if a < n then f a else 0 := by
  induction n with
  | zero => rfl
  | succ n ih =>
    rw [expand_succ, List.count_append, ih, List.count_replicate]
    by_cases h : n = a
    · subst h
      simp
    · by_cases hlt : a < n
      · simp [h, hlt, Nat.lt_succ_of_lt hlt]
      · have hnot : ¬ a < n + 1 := by omega
        simp [h, hlt, hnot]

theorem sorted_expand : (expand f n).Pairwise (· ≤ ·) := by
  induction n with
  | zero => exact .nil
  | succ n ih =>
    rw [expand_succ, List.pairwise_append]
    refine ⟨ih, List.pairwise_replicate.mpr (.inr (Nat.le_refl n)), ?_⟩
    intro a ha b hb
    rw [(List.mem_replicate.mp hb).2]
    exact Nat.le_of_lt (lt_of_mem_expand f n ha)

theorem sorted_eq_expand {l : List ℕ} (hl : l.Pairwise (· ≤ ·)) (hn : ∀ a ∈ l, a < n) :
    l = expand (fun i => l.count i) n := by
  have hperm : l.Perm (expand (fun i => l.count i) n) := by
    rw [List.perm_iff_count]
    intro a
    rw [count_expand]
    by_cases ha : a < n
    · rw [if_pos ha]
    · rw [if_neg ha, List.count_eq_zero]
      exact fun h => ha (hn a h)
  exact hperm.eq_of_pairwise (fun _ _ _ _ => Nat.le_antisymm) hl (sorted_expand _ n)

/-! ## Images of two lists of lists -/

variable {α β : Type} {g h : α → List β}

theorem length_eq_of_flatMap_eq {l : List α} (hle : ∀ x ∈ l, (h x).length ≤ (g x).length)
    (heq : l.flatMap g = l.flatMap h) : ∀ x ∈ l, (g x).length = (h x).length := by
  have hlength : ∀ l : List α, (∀ x ∈ l, (h x).length ≤ (g x).length) →
      (l.flatMap h).length ≤ (l.flatMap g).length := by
    intro l
    induction l with
    | nil => exact fun _ => Nat.le_refl 0
    | cons x l ih =>
      intro hle
      rw [List.forall_mem_cons] at hle
      simp only [List.flatMap_cons, List.length_append]
      exact Nat.add_le_add hle.1 (ih hle.2)
  induction l with
  | nil => simp
  | cons x l ih =>
    rw [List.forall_mem_cons] at hle ⊢
    have hsum := congrArg List.length heq
    simp only [List.flatMap_cons, List.length_append] at hsum
    have htail := hlength l hle.2
    have hx : (g x).length = (h x).length := by omega
    refine ⟨hx, ih hle.2 ?_⟩
    exact (List.append_inj heq hx).2

end InVehicle.SortedLists
