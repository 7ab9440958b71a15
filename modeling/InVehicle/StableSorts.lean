import Mathlib.Data.List.Basic
import Mathlib.Data.List.Forall2
import Mathlib.Order.Lattice

/-!
# Stable sorting by a key

What a stable sort by a key leaves of the order of a list: the items of one key stay
as they come.
-/

set_option autoImplicit false

namespace InVehicle.StableSorts

variable {α κ : Type} [LinearOrder κ] (key : α → κ)

def sortByKey (l : List α) : List α := l.mergeSort fun a b => decide (key a ≤ key b)

def ofKey (k : κ) (l : List α) : List α := l.filter fun a => decide (key a = k)

theorem sortByKey_perm (l : List α) : (sortByKey key l).Perm l := l.mergeSort_perm _

theorem le_trans_key (a b c : α) (hab : decide (key a ≤ key b)) (hbc : decide (key b ≤ key c)) :
    decide (key a ≤ key c) := by
  rw [decide_eq_true_eq] at *
  exact hab.trans hbc

theorem le_total_key (a b : α) : (decide (key a ≤ key b) || decide (key b ≤ key a)) = true := by
  rw [Bool.or_eq_true, decide_eq_true_eq, decide_eq_true_eq]
  exact le_total (key a) (key b)

theorem sortByKey_sorted (l : List α) :
    (sortByKey key l).Pairwise fun a b => key a ≤ key b := by
  have h := List.pairwise_mergeSort (le_trans_key key) (le_total_key key) l
  exact h.imp fun hab => of_decide_eq_true hab

theorem sortByKey_of_sorted {l : List α} (h : l.Pairwise fun a b => key a ≤ key b) :
    sortByKey key l = l :=
  List.mergeSort_of_pairwise (h.imp fun hab => decide_eq_true hab)

theorem key_of_mem_ofKey {k : κ} {l : List α} {a : α} (h : a ∈ ofKey key k l) : key a = k :=
  of_decide_eq_true (List.mem_filter.mp h).2

/-- Items of one key stay in place: they are a sorted part of the list, and a stable
sort keeps such a part. -/
theorem ofKey_sortByKey (k : κ) (l : List α) : ofKey key k (sortByKey key l) = ofKey key k l := by
  have hsorted : (ofKey key k l).Pairwise fun a b => decide (key a ≤ key b) := by
    refine List.pairwise_of_forall_mem_list fun a ha b hb => decide_eq_true ?_
    rw [key_of_mem_ofKey key ha, key_of_mem_ofKey key hb]
  have hkept : (ofKey key k l).Sublist (sortByKey key l) :=
    List.sublist_mergeSort (le_trans_key key) (le_total_key key) hsorted List.filter_sublist
  have hsub : (ofKey key k l).Sublist (ofKey key k (sortByKey key l)) := by
    have hfilter := hkept.filter fun a => decide (key a = k)
    simpa only [ofKey, List.filter_filter, Bool.and_self] using hfilter
  have hlength : (ofKey key k (sortByKey key l)).length = (ofKey key k l).length :=
    ((sortByKey_perm key l).filter _).length_eq
  exact (hsub.eq_of_length hlength.symm).symm

theorem map_key_sortByKey {l m : List α} (h : l.Perm m) :
    (sortByKey key l).map key = (sortByKey key m).map key := by
  have hperm := ((sortByKey_perm key l).trans (h.trans (sortByKey_perm key m).symm)).map key
  have hl := List.pairwise_map.mpr (sortByKey_sorted key l)
  have hm := List.pairwise_map.mpr (sortByKey_sorted key m)
  exact hperm.eq_of_pairwise (fun _ _ _ _ hab hba => le_antisymm hab hba) hl hm

/-! ## Comparing place by place -/

theorem forall₂_iff_ofKey {R : α → α → Prop} {l m : List α} (h : l.map key = m.map key) :
    List.Forall₂ R l m ↔ ∀ k, List.Forall₂ R (ofKey key k l) (ofKey key k m) := by
  induction l generalizing m with
  | nil =>
    obtain rfl : m = [] := List.map_eq_nil_iff.mp h.symm
    simp [ofKey]
  | cons a l ih =>
    cases m with
    | nil => simp at h
    | cons b m =>
      rw [List.map_cons, List.map_cons, List.cons.injEq] at h
      obtain ⟨hkey, hrest⟩ := h
      rw [List.forall₂_cons, ih hrest]
      constructor
      · rintro ⟨hab, hall⟩ k
        by_cases hk : key a = k
        · have hk' : key b = k := hkey ▸ hk
          simpa [ofKey, hk, hk'] using ⟨hab, hall k⟩
        · have hk' : ¬key b = k := hkey ▸ hk
          simpa [ofKey, hk, hk'] using hall k
      · intro hall
        have hhead : R a b ∧ List.Forall₂ R (ofKey key (key a) l) (ofKey key (key a) m) := by
          simpa [ofKey, hkey] using hall (key a)
        refine ⟨hhead.1, fun k => ?_⟩
        by_cases hk : key a = k
        · exact hk ▸ hhead.2
        · have hk' : ¬key b = k := hkey ▸ hk
          simpa [ofKey, hk, hk'] using hall k

theorem forall₂_sortByKey_iff {R : α → α → Prop} {l m : List α} (h : l.Perm m) :
    List.Forall₂ R (sortByKey key l) (sortByKey key m) ↔
      ∀ k, List.Forall₂ R (ofKey key k l) (ofKey key k m) := by
  rw [forall₂_iff_ofKey key (map_key_sortByKey key h)]
  simp only [ofKey_sortByKey]

end InVehicle.StableSorts
