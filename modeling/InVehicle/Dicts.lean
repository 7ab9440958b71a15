import Mathlib.Data.List.Nodup

/-!
# Ordered dictionaries

The entries stand in the order in which their keys came. A new value for a key takes the
place of the old one.
-/

set_option autoImplicit false

namespace InVehicle.Dicts

structure Dict (κ ν : Type) where
  entries : List (κ × ν)
  nodup : (entries.map Prod.fst).Nodup

variable {κ ν : Type} [DecidableEq κ]

def put (k : κ) (v : ν) : List (κ × ν) → List (κ × ν)
  | [] => [(k, v)]
  | e :: es => if e.1 = k then (k, v) :: es else e :: put k v es

theorem map_fst_put (k : κ) (v : ν) (es : List (κ × ν)) :
    (put k v es).map Prod.fst =
      if k ∈ es.map Prod.fst then es.map Prod.fst else es.map Prod.fst ++ [k] := by
  induction es with
  | nil => rfl
  | cons e es ih =>
    by_cases h : e.1 = k
    · simp [put, h]
    · have hk : k ≠ e.1 := fun hk => h hk.symm
      simp only [put, if_neg h, List.map_cons, ih, List.mem_cons, hk, false_or]
      split <;> rfl

theorem nodup_put {es : List (κ × ν)} (h : (es.map Prod.fst).Nodup) (k : κ) (v : ν) :
    ((put k v es).map Prod.fst).Nodup := by
  rw [map_fst_put]
  by_cases hk : k ∈ es.map Prod.fst
  · rw [if_pos hk]
    exact h
  · rw [if_neg hk, ← List.concat_eq_append]
    exact h.concat hk

theorem mem_put {es : List (κ × ν)} (h : (es.map Prod.fst).Nodup) (k k' : κ) (v v' : ν) :
    (k', v') ∈ put k v es ↔ if k' = k then v' = v else (k', v') ∈ es := by
  induction es with
  | nil => by_cases hk : k' = k <;> simp [put, hk]
  | cons e es ih =>
    obtain ⟨j, u⟩ := e
    obtain ⟨hj, hes⟩ := List.nodup_cons.mp h
    rw [put]
    by_cases hjk : j = k
    · subst hjk
      have hnot : (j, v') ∉ es := fun h => hj (List.mem_map.mpr ⟨_, h, rfl⟩)
      by_cases hk : k' = j <;> simp [hk, hnot]
    · rw [if_neg hjk, List.mem_cons, List.mem_cons, ih hes]
      by_cases hk : k' = k
      · subst hk
        simp [Ne.symm hjk]
      · simp [hk]

theorem eq_or_mem_of_mem_put {k : κ} {v : ν} {es : List (κ × ν)} {x : κ × ν}
    (h : x ∈ put k v es) : x = (k, v) ∨ x ∈ es := by
  induction es with
  | nil => exact .inl (List.mem_singleton.mp h)
  | cons e es ih =>
    rw [put] at h
    split at h
    · exact (List.mem_cons.mp h).imp_right (List.mem_cons_of_mem e)
    · rcases List.mem_cons.mp h with rfl | h
      · exact .inr List.mem_cons_self
      · exact (ih h).imp_right (List.mem_cons_of_mem e)

theorem lookup_cons_ite (k : κ) (e : κ × ν) (es : List (κ × ν)) :
    (e :: es).lookup k = if k = e.1 then some e.2 else es.lookup k := by
  by_cases h : k = e.1
  · rw [if_pos h, h]
    exact List.lookup_cons_self
  · rw [if_neg h, List.lookup_cons, beq_false_of_ne h]

theorem lookup_put (k k' : κ) (v : ν) (es : List (κ × ν)) :
    (put k v es).lookup k' = if k' = k then some v else es.lookup k' := by
  induction es with
  | nil => exact lookup_cons_ite k' (k, v) []
  | cons e es ih =>
    by_cases h : e.1 = k
    · rw [put, if_pos h, lookup_cons_ite, lookup_cons_ite, h]
      by_cases hk : k' = k
      · simp [hk]
      · simp [hk]
    · rw [put, if_neg h, lookup_cons_ite, lookup_cons_ite, ih]
      by_cases hk : k' = e.1
      · simp [hk, h]
      · simp [hk]

def update (es new : List (κ × ν)) : List (κ × ν) := new.foldl (fun es e => put e.1 e.2 es) es

theorem lookup_update {new : List (κ × ν)} (h : (new.map Prod.fst).Nodup) (es : List (κ × ν))
    (k : κ) : (update es new).lookup k = (new.lookup k).or (es.lookup k) := by
  induction new generalizing es with
  | nil => rfl
  | cons e new ih =>
    rw [List.map_cons, List.nodup_cons] at h
    rw [update, List.foldl_cons, ← update, ih h.2, lookup_put, lookup_cons_ite]
    by_cases hk : k = e.1
    · have hnone : new.lookup k = none := by
        rw [List.lookup_eq_none_iff]
        intro e' he'
        refine bne_iff_ne.mpr fun heq => h.1 ?_
        rw [← hk, heq]
        exact List.mem_map_of_mem he'
      rw [if_pos hk, if_pos hk, hnone]
      rfl
    · rw [if_neg hk, if_neg hk]

namespace Dict

def empty : Dict κ ν := ⟨[], List.nodup_nil⟩

def keys (d : Dict κ ν) : List κ := d.entries.map Prod.fst

def get? (d : Dict κ ν) (k : κ) : Option ν := d.entries.lookup k

def set (d : Dict κ ν) (k : κ) (v : ν) : Dict κ ν where
  entries := put k v d.entries
  nodup := nodup_put d.nodup k v

@[simp] theorem get?_empty (k : κ) : (empty : Dict κ ν).get? k = none := rfl

theorem get?_set (d : Dict κ ν) (k k' : κ) (v : ν) :
    (d.set k v).get? k' = if k' = k then some v else d.get? k' :=
  lookup_put k k' v d.entries

@[simp] theorem get?_set_self (d : Dict κ ν) (k : κ) (v : ν) : (d.set k v).get? k = some v := by
  rw [get?_set, if_pos rfl]

theorem get?_set_ne (d : Dict κ ν) {k k' : κ} (h : k' ≠ k) (v : ν) :
    (d.set k v).get? k' = d.get? k' := by
  rw [get?_set, if_neg h]

theorem mem_keys_iff (d : Dict κ ν) (k : κ) : k ∈ d.keys ↔ ∃ v, d.get? k = some v := by
  rw [keys, get?, ← Option.isSome_iff_exists, List.lookup_isSome_iff]
  simp only [List.mem_map, beq_iff_eq]
  exact ⟨fun ⟨e, he, hk⟩ => ⟨e, he, hk.symm⟩, fun ⟨e, he, hk⟩ => ⟨e, he, hk.symm⟩⟩

theorem keys_set (d : Dict κ ν) {k : κ} (h : k ∈ d.keys) (v : ν) : (d.set k v).keys = d.keys := by
  rw [keys] at h ⊢
  exact (map_fst_put k v d.entries).trans (if_pos h)

end Dict

end InVehicle.Dicts
