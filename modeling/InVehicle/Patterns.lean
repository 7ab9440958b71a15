import Mathlib.Data.Nat.Notation
import Mathlib.Data.List.Infix

/-!
# Patterns that are searched for in a text

A pattern is a list of items, each one character of a class or one and more of them. What
lies behind a match has to satisfy the condition for the end. `search` tries every place
of the text and every way to share the characters out.
-/

set_option autoImplicit false

namespace InVehicle.Patterns

variable {α : Type}

inductive Item (α : Type) where
  | one (p : α → Bool)
  | many (p : α → Bool)

section Search

variable (atEnd : List α → Bool)

def front : List (Item α) → List α → Bool
  | [], t => atEnd t
  | .one p :: r, c :: t => p c && front r t
  | .many p :: r, c :: t => p c && (front r t || front (.many p :: r) t)
  | .one _ :: _, [] => false
  | .many _ :: _, [] => false

def search (alternatives : List (List (Item α))) (t : List α) : Bool :=
  t.tails.any fun s => alternatives.any fun r => front atEnd r s

end Search

def Matches : List (Item α) → List α → Prop
  | [], u => u = []
  | .one p :: r, u => ∃ c v, u = c :: v ∧ p c = true ∧ Matches r v
  | .many p :: r, u => ∃ w v, u = w ++ v ∧ w ≠ [] ∧ (∀ c ∈ w, p c = true) ∧ Matches r v

section Laws

variable {atEnd : List α → Bool}

theorem front_many_iff {p : α → Bool} {r : List (Item α)} {t : List α}
    (ih : ∀ t, front atEnd r t = true ↔ ∃ u v, t = u ++ v ∧ Matches r u ∧ atEnd v = true) :
    front atEnd (.many p :: r) t = true ↔
      ∃ u v, t = u ++ v ∧ Matches (.many p :: r) u ∧ atEnd v = true := by
  induction t with
  | nil =>
    constructor
    · intro h
      cases h
    · rintro ⟨u, v, ht, ⟨w, u', rfl, hw, -⟩, -⟩
      rw [List.nil_eq, List.append_assoc, List.append_eq_nil_iff] at ht
      exact absurd ht.1 hw
  | cons c t iht =>
    rw [front, Bool.and_eq_true, Bool.or_eq_true, ih, iht]
    constructor
    · rintro ⟨hc, ⟨u, v, rfl, hu, hv⟩ | ⟨u, v, rfl, ⟨w, u', rfl, -, hall, hu'⟩, hv⟩⟩
      · exact ⟨c :: u, v, rfl, ⟨[c], u, rfl, List.cons_ne_nil _ _, by simpa using hc, hu⟩, hv⟩
      · refine ⟨c :: (w ++ u'), v, rfl, ⟨c :: w, u', rfl, List.cons_ne_nil _ _, ?_, hu'⟩, hv⟩
        exact List.forall_mem_cons.mpr ⟨hc, hall⟩
    · rintro ⟨u, v, ht, ⟨w, u', rfl, hw, hall, hu'⟩, hv⟩
      cases w with
      | nil => exact absurd rfl hw
      | cons d w =>
        rw [List.forall_mem_cons] at hall
        cases ht
        refine ⟨hall.1, ?_⟩
        cases w with
        | nil => exact .inl ⟨u', v, rfl, hu', hv⟩
        | cons e w =>
          exact .inr ⟨e :: w ++ u', v, rfl, ⟨e :: w, u', rfl, List.cons_ne_nil _ _, hall.2, hu'⟩,
            hv⟩

theorem front_iff (r : List (Item α)) (t : List α) :
    front atEnd r t = true ↔ ∃ u v, t = u ++ v ∧ Matches r u ∧ atEnd v = true := by
  induction r generalizing t with
  | nil =>
    rw [front]
    constructor
    · intro h
      exact ⟨[], t, rfl, rfl, h⟩
    · rintro ⟨u, v, rfl, rfl, h⟩
      exact h
  | cons item r ih =>
    cases item with
    | many p => exact front_many_iff ih
    | one p =>
      cases t with
      | nil =>
        constructor
        · intro h
          cases h
        · rintro ⟨u, v, ht, ⟨c, u', rfl, -⟩, -⟩
          cases ht
      | cons c t =>
        rw [front, Bool.and_eq_true, ih]
        constructor
        · rintro ⟨hc, u, v, rfl, hu, hv⟩
          exact ⟨c :: u, v, rfl, ⟨c, u, rfl, hc, hu⟩, hv⟩
        · rintro ⟨u, v, ht, ⟨d, u', rfl, hd, hu'⟩, hv⟩
          cases ht
          exact ⟨hd, u', v, rfl, hu', hv⟩

theorem search_iff (alternatives : List (List (Item α))) (t : List α) :
    search atEnd alternatives t = true ↔
      ∃ pre u v, t = pre ++ (u ++ v) ∧ atEnd v = true ∧ ∃ r ∈ alternatives, Matches r u := by
  simp only [search, List.any_eq_true, List.mem_tails, front_iff]
  constructor
  · rintro ⟨_, ⟨pre, rfl⟩, r, hr, u, v, rfl, hu, hv⟩
    exact ⟨pre, u, v, rfl, hv, r, hr, hu⟩
  · rintro ⟨pre, u, v, rfl, hv, r, hr, hu⟩
    exact ⟨u ++ v, ⟨pre, rfl⟩, r, hr, u, v, rfl, hu, hv⟩

theorem matches_one_iff {p : α → Bool} {u : List α} :
    Matches [.one p] u ↔ ∃ c, u = [c] ∧ p c = true := by
  constructor
  · rintro ⟨c, v, rfl, hc, rfl⟩
    exact ⟨c, rfl, hc⟩
  · rintro ⟨c, rfl, hc⟩
    exact ⟨c, [], rfl, hc, rfl⟩

theorem matches_concat_one {p : α → Bool} {r : List (Item α)} {u : List α}
    (h : Matches (r ++ [.one p]) u) : ∃ w c, u = w ++ [c] ∧ p c = true := by
  induction r generalizing u with
  | nil =>
    obtain ⟨c, rfl, hc⟩ := matches_one_iff.mp h
    exact ⟨[], c, rfl, hc⟩
  | cons item r ih =>
    cases item with
    | one q =>
      obtain ⟨d, v, rfl, -, hv⟩ := h
      obtain ⟨w, c, rfl, hc⟩ := ih hv
      exact ⟨d :: w, c, rfl, hc⟩
    | many q =>
      obtain ⟨w', v, rfl, -, -, hv⟩ := h
      obtain ⟨w, c, rfl, hc⟩ := ih hv
      exact ⟨w' ++ w, c, (List.append_assoc _ _ _).symm, hc⟩

theorem search_eq_of_redundant {few all : List (List (Item α))} (hfew : ∀ r ∈ few, r ∈ all)
    (hall : ∀ r ∈ all, r ∈ few ∨ ∃ r' p, r = r' ++ [.one p] ∧ [.one p] ∈ few) (t : List α) :
    search atEnd all t = search atEnd few t := by
  rw [Bool.eq_iff_iff, search_iff, search_iff]
  constructor
  · rintro ⟨pre, u, v, rfl, hv, r, hr, hu⟩
    rcases hall r hr with hr | ⟨r', p, rfl, hp⟩
    · exact ⟨pre, u, v, rfl, hv, r, hr, hu⟩
    · obtain ⟨w, c, rfl, hc⟩ := matches_concat_one hu
      refine ⟨pre ++ w, [c], v, ?_, hv, _, hp, matches_one_iff.mpr ⟨c, rfl, hc⟩⟩
      rw [List.append_assoc, List.append_assoc]
  · rintro ⟨pre, u, v, rfl, hv, r, hr, hu⟩
    exact ⟨pre, u, v, rfl, hv, r, hfew r hr, hu⟩

end Laws

end InVehicle.Patterns
