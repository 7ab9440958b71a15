import Mathlib.Data.List.Induction
import Mathlib.Data.List.Nodup
import Mathlib.Data.Nat.Notation

/-!
# Lists of entries with a key

Items come one after the other. One with a key changes the first entry of this key, and
makes a new entry where there is none. What the list is behind all items is then said
for each key on its own: `Summary` gives the entry that the items so far make of a key.
-/

set_option autoImplicit false

namespace InVehicle.KeyedLists

variable {ι κ ε : Type}

/-! ## First appearances -/

section Dups

variable [DecidableEq κ]

theorem eraseDups_concat (ks : List κ) (k : κ) :
    (ks ++ [k]).eraseDups = if k ∈ ks then ks.eraseDups else ks.eraseDups ++ [k] := by
  rw [List.eraseDups_append, List.cons_removeAll]
  by_cases h : k ∈ ks <;> simp [h, List.removeAll, List.eraseDups_cons]

theorem eraseDups_nodup (ks : List κ) : ks.eraseDups.Nodup := by
  induction ks using List.reverseRecOn with
  | nil => exact List.nodup_nil
  | append_singleton ks k ih =>
    rw [eraseDups_concat]
    by_cases h : k ∈ ks
    · rwa [if_pos h]
    · rw [if_neg h, ← List.concat_eq_append]
      exact ih.concat (mt List.mem_eraseDups.mp h)

end Dups

/-! ## The first entry of a kind -/

variable (p : ε → Bool) (f : ε → ε) (new : ε)

def changeFirst (entries : List ε) : List ε :=
  match entries.findIdx? p with
  | some n => entries.modify n f
  | none => entries ++ [new]

theorem changeFirst_cons (e : ε) (entries : List ε) :
    changeFirst p f new (e :: entries) =
      if p e = true then f e :: entries else e :: changeFirst p f new entries := by
  rw [changeFirst, changeFirst, List.findIdx?_cons]
  by_cases h : p e = true
  · rw [if_pos h, if_pos h]
    rfl
  · rw [if_neg h, if_neg h]
    cases entries.findIdx? p <;> rfl

theorem changeFirst_append (es entries : List ε) (h : ∀ e ∈ es, ¬ p e = true) :
    changeFirst p f new (es ++ entries) = es ++ changeFirst p f new entries := by
  induction es with
  | nil => rfl
  | cons e es ih =>
    rw [List.forall_mem_cons] at h
    rw [List.cons_append, changeFirst_cons, if_neg h.1, ih h.2, List.cons_append]

theorem changeFirst_new (es : List ε) (h : ∀ e ∈ es, ¬ p e = true) :
    changeFirst p f new es = es ++ [new] := by
  rw [← List.append_nil es, changeFirst_append p f new es [] h, List.append_nil]
  rfl

theorem changeFirst_map [DecidableEq κ] (entry : κ → ε) (ks : List κ) (k : κ)
    (hp : ∀ k', p (entry k') = true ↔ k' = k) (hks : ks.Nodup) (hk : k ∈ ks) :
    changeFirst p f new (ks.map entry) =
      ks.map fun k' => if k' = k then f (entry k') else entry k' := by
  induction ks with
  | nil => cases hk
  | cons k₀ ks ih =>
    rw [List.nodup_cons] at hks
    rw [List.map_cons, changeFirst_cons, List.map_cons]
    by_cases h : k₀ = k
    · rw [if_pos ((hp k₀).mpr h), if_pos h]
      have hrest : ∀ k' ∈ ks, entry k' = if k' = k then f (entry k') else entry k' := by
        intro k' hk'
        rw [if_neg]
        rintro rfl
        exact hks.1 (h ▸ hk')
      rw [List.map_congr_left hrest]
    · rw [if_neg (mt (hp k₀).mp h), if_neg h]
      rw [ih hks.2 ((List.mem_cons.mp hk).resolve_left fun hk₀ => h hk₀.symm)]

/-! ## Tables -/

structure Table (ι κ ε : Type) where
  itemKey : ι → Option κ
  key : ε → Option κ
  create : ι → ε
  update : ι → ε → ε

variable [DecidableEq κ] (T : Table ι κ ε)

def Table.put (entries : List ε) (item : ι) : List ε :=
  match T.itemKey item with
  | none => entries
  | some k => changeFirst (fun e => T.key e = some k) (T.update item) (T.create item) entries

def Table.keys (items : List ι) : List κ := (items.filterMap T.itemKey).eraseDups

variable {T}

theorem Table.put_keyless {item : ι} (hitem : T.itemKey item = none) (entries : List ε) :
    T.put entries item = entries := by
  rw [Table.put, hitem]

theorem Table.put_keyed {item : ι} {k : κ} (hitem : T.itemKey item = some k)
    (entries : List ε) :
    T.put entries item =
      changeFirst (fun e => T.key e = some k) (T.update item) (T.create item) entries := by
  rw [Table.put, hitem]

theorem Table.keys_keyless {item : ι} (hitem : T.itemKey item = none) (items : List ι) :
    T.keys (items ++ [item]) = T.keys items := by
  rw [Table.keys, List.filterMap_append, List.filterMap_cons_none hitem, List.filterMap_nil,
    List.append_nil, Table.keys]

theorem Table.keys_keyed {item : ι} {k : κ} (hitem : T.itemKey item = some k)
    (items : List ι) :
    T.keys (items ++ [item]) =
      if k ∈ T.keys items then T.keys items else T.keys items ++ [k] := by
  rw [Table.keys, List.filterMap_append, List.filterMap_cons_some hitem, List.filterMap_nil,
    eraseDups_concat]
  simp only [Table.keys, List.mem_eraseDups]

structure Summary (T : Table ι κ ε) where
  entry : List ι → κ → ε
  key_entry : ∀ items k, T.key (entry items k) = some k
  entry_other : ∀ items item k, T.itemKey item ≠ some k →
    entry (items ++ [item]) k = entry items k
  entry_first : ∀ items item k, T.itemKey item = some k → k ∉ T.keys items →
    entry (items ++ [item]) k = T.create item
  entry_again : ∀ items item k, T.itemKey item = some k → k ∈ T.keys items →
    entry (items ++ [item]) k = T.update item (entry items k)

namespace Summary

variable (S : Summary T)

def table (entries : List ε) (items : List ι) : List ε :=
  entries ++ (T.keys items).map (S.entry items)

theorem entry_ne {item : ι} {k k' : κ} (hitem : T.itemKey item = some k) (hk : k' ≠ k)
    (items : List ι) : S.entry (items ++ [item]) k' = S.entry items k' := by
  apply S.entry_other
  rw [hitem]
  exact fun h => hk (Option.some_inj.mp h).symm

variable {entries : List ε} (hentries : ∀ e ∈ entries, T.key e = none) (items : List ι)

theorem table_keyless {item : ι} (hitem : T.itemKey item = none) :
    S.table entries (items ++ [item]) = S.table entries items := by
  rw [table, table, Table.keys_keyless hitem]
  congr 1
  refine List.map_congr_left fun k _ => S.entry_other items item k ?_
  rw [hitem]
  exact Option.some_ne_none k ∘ Eq.symm

include hentries

theorem changeFirst_table (k : κ) (f : ε → ε) (new : ε) :
    changeFirst (fun e => T.key e = some k) f new (S.table entries items) =
      entries ++ changeFirst (fun e => T.key e = some k) f new
        ((T.keys items).map (S.entry items)) := by
  apply changeFirst_append
  intro e he
  rw [hentries e he]
  simp

theorem put_again {item : ι} {k : κ} (hitem : T.itemKey item = some k)
    (hk : k ∈ T.keys items) :
    T.put (S.table entries items) item = S.table entries (items ++ [item]) := by
  have hnodup : (T.keys items).Nodup := eraseDups_nodup _
  rw [Table.put_keyed hitem, S.changeFirst_table hentries, table, Table.keys_keyed hitem,
    if_pos hk, changeFirst_map _ _ _ (S.entry items) _ k (by simp [S.key_entry]) hnodup hk]
  congr 1
  refine List.map_congr_left fun k' _ => ?_
  by_cases h : k' = k
  · rw [if_pos h, h, S.entry_again items item k hitem hk]
  · rw [if_neg h, S.entry_ne hitem h]

theorem put_first {item : ι} {k : κ} (hitem : T.itemKey item = some k)
    (hk : k ∉ T.keys items) :
    T.put (S.table entries items) item = S.table entries (items ++ [item]) := by
  have hne : ∀ k' ∈ T.keys items, k' ≠ k := by
    rintro k' hk' rfl
    exact hk hk'
  have hmap : (T.keys items).map (S.entry (items ++ [item])) =
      (T.keys items).map (S.entry items) :=
    List.map_congr_left fun k' hk' => S.entry_ne hitem (hne k' hk') items
  rw [Table.put_keyed hitem, S.changeFirst_table hentries, table, Table.keys_keyed hitem,
    if_neg hk, changeFirst_new, List.map_append, hmap, List.map_singleton,
    S.entry_first items item k hitem hk]
  intro e he
  obtain ⟨k', hk', rfl⟩ := List.mem_map.mp he
  simp [S.key_entry, hne k' hk']

theorem put_table (item : ι) :
    T.put (S.table entries items) item = S.table entries (items ++ [item]) := by
  match hitem : T.itemKey item with
  | none => rw [Table.put_keyless hitem, S.table_keyless items hitem]
  | some k =>
    by_cases hk : k ∈ T.keys items
    · exact S.put_again hentries items hitem hk
    · exact S.put_first hentries items hitem hk

theorem foldl_put : items.foldl T.put entries = S.table entries items := by
  induction items using List.reverseRecOn with
  | nil => simp [table, Table.keys]
  | append_singleton items item ih =>
    rw [List.foldl_concat, ih, S.put_table hentries]

end Summary

end InVehicle.KeyedLists
