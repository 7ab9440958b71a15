import Mathlib.Algebra.GroupWithZero.Nat
import Mathlib.Algebra.Order.Group.Nat
import Mathlib.Algebra.BigOperators.Group.List.Basic

/-!
# Frames in a stream that arrives in pieces

A parser looks for one complete frame at the front of the bytes it has
collected. A reader that starts each call with a fresh parser returns the frames
of the stream exactly when every frame ends where a piece ends.
-/

set_option autoImplicit false

namespace InVehicle.Framing

variable {β μ : Type} (front : List β → Option (μ × List β))

/-- `w` is the encoding of `m`: found whatever follows it, and not before all
of it has arrived. -/
structure IsFrame (w : List β) (m : μ) : Prop where
  nonempty : w ≠ []
  whole : ∀ r, front (w ++ r) = some (m, r)
  part : ∀ p q, w = p ++ q → q ≠ [] → front p = none

/-- One call with a fresh parser: pieces are collected until a frame is
complete, and what lies behind that frame is dropped with the parser. -/
def readOne : List β → List (List β) → Option μ × List (List β)
  | _, [] => (none, [])
  | acc, c :: cs =>
    match front (acc ++ c) with
    | some (m, _) => (some m, cs)
    | none => readOne (acc ++ c) cs

def readCalls : ℕ → List (List β) → List (Option μ)
  | 0, _ => []
  | n+1, cs => (readOne front [] cs).1 :: readCalls n (readOne front [] cs).2

/-- The pieces can be grouped so that each group is one frame. -/
def Aligned (ws cs : List (List β)) : Prop :=
  ∃ groups : List (List (List β)), groups.flatten = cs ∧ groups.map List.flatten = ws

variable {front}

theorem readOne_frame (w : List β) (m : μ) (hw : IsFrame front w m) (group cs : List (List β))
    (acc q : List β) (hq : w = acc ++ q) (hne : q ≠ []) (hg : group.flatten = q)
    (hc : ∀ c ∈ group, c ≠ []) : readOne front acc (group ++ cs) = (some m, cs) := by
  induction group generalizing acc q with
  | nil => exact absurd hg.symm hne
  | cons c group ih =>
    rw [List.flatten_cons] at hg
    by_cases hlast : group.flatten = []
    · have hnil : group = [] := by
        cases group with
        | nil => rfl
        | cons d group =>
          simp only [List.flatten_cons, List.append_eq_nil_iff] at hlast
          exact absurd hlast.1 (hc d (by simp))
      subst hnil
      have hf := hw.whole []
      rw [hq, ← hg] at hf
      simp only [List.flatten_nil, List.append_nil] at hf
      simp only [List.cons_append, List.nil_append, readOne, hf]
    · have hf := hw.part (acc ++ c) group.flatten (by rw [hq, ← hg, List.append_assoc]) hlast
      simp only [List.cons_append, readOne, hf]
      exact ih (acc ++ c) group.flatten (by rw [hq, ← hg, List.append_assoc]) hlast rfl
        (fun d hd => hc d (by simp [hd]))

theorem readCalls_aligned (ws : List (List β)) (ms : List μ)
    (hw : List.Forall₂ (IsFrame front) ws ms) (cs : List (List β)) (hc : ∀ c ∈ cs, c ≠ [])
    (h : Aligned ws cs) : readCalls front ms.length cs = ms.map some := by
  obtain ⟨groups, rfl, rfl⟩ := h
  generalize hws : groups.map List.flatten = ws at hw
  induction hw generalizing groups with
  | nil => rfl
  | @cons w m ws ms hm _ ih =>
    obtain ⟨group, groups, rfl, hg, hgs⟩ := List.map_eq_cons_iff.mp hws
    rw [List.flatten_cons] at hc
    have hread := readOne_frame w m hm group groups.flatten [] w rfl hm.nonempty hg
      (fun c hm => hc c (by simp [hm]))
    simp only [List.flatten_cons, List.length_cons, readCalls, hread, List.map_cons]
    rw [ih groups (fun c hm => hc c (List.mem_append_right _ hm)) hgs]

theorem readOne_rest (front : List β → Option (μ × List β)) (acc : List β)
    (cs : List (List β)) : ∀ c ∈ (readOne front acc cs).2, c ∈ cs := by
  induction cs generalizing acc with
  | nil => simp [readOne]
  | cons d cs ih =>
    intro c hc
    rw [readOne] at hc
    cases hf : front (acc ++ d) with
    | none =>
      rw [hf] at hc
      exact List.mem_cons_of_mem _ (ih (acc ++ d) c hc)
    | some x =>
      rw [hf] at hc
      exact List.mem_cons_of_mem _ hc

variable {size : μ → ℕ}

theorem readOne_some (hsize : ∀ b m r, front b = some (m, r) → b.length = size m + r.length)
    (cs rest : List (List β)) (acc : List β) (m : μ) (h : readOne front acc cs = (some m, rest)) :
    ∃ group, cs = group ++ rest ∧ size m ≤ acc.length + group.flatten.length := by
  induction cs generalizing acc with
  | nil => cases h
  | cons c cs ih =>
    rw [readOne] at h
    cases hf : front (acc ++ c) with
    | none =>
      rw [hf] at h
      obtain ⟨group, rfl, hle⟩ := ih (acc ++ c) h
      refine ⟨c :: group, rfl, ?_⟩
      simp only [List.length_append, List.flatten_cons] at *
      omega
    | some x =>
      obtain ⟨m', r⟩ := x
      simp only [hf, Prod.mk.injEq, Option.some.injEq] at h
      obtain ⟨rfl, rfl⟩ := h
      have hlen := hsize _ _ _ hf
      refine ⟨[c], rfl, ?_⟩
      simp only [List.length_append, List.flatten_cons, List.flatten_nil, List.append_nil] at *
      omega

theorem readCalls_split (hsize : ∀ b m r, front b = some (m, r) → b.length = size m + r.length)
    (ms : List μ) (cs : List (List β)) (h : readCalls front ms.length cs = ms.map some) :
    ∃ groups rest, cs = groups.flatten ++ rest ∧
      List.Forall₂ (fun m group => size m ≤ (List.flatten group).length) ms groups := by
  induction ms generalizing cs with
  | nil => exact ⟨[], cs, rfl, .nil⟩
  | cons m ms ih =>
    simp only [List.length_cons, readCalls, List.map_cons, List.cons.injEq] at h
    obtain ⟨group, hg, hle⟩ := readOne_some hsize cs (readOne front [] cs).2 [] m
      (Prod.ext h.1 rfl)
    obtain ⟨groups, rest, hgs, hall⟩ := ih _ h.2
    refine ⟨group :: groups, rest, ?_, .cons (by simpa using hle) hall⟩
    rw [List.flatten_cons, List.append_assoc, ← hgs, ← hg]

theorem lengths_of_sum {α : Type} (f : α → ℕ) (as : List α) (groups : List (List (List β)))
    (h : List.Forall₂ (fun a group => f a ≤ (List.flatten group).length) as groups) :
    (as.map f).sum ≤ groups.flatten.flatten.length ∧
      (groups.flatten.flatten.length ≤ (as.map f).sum →
        (groups.map List.flatten).map List.length = as.map f) := by
  induction h with
  | nil => simp
  | cons hle _ ih =>
    obtain ⟨hsum, heq⟩ := ih
    simp only [List.map_cons, List.sum_cons, List.flatten_cons, List.flatten_append,
      List.length_append]
    refine ⟨by omega, fun h => ?_⟩
    rw [heq (by omega)]
    congr 1
    omega

theorem frame_lengths (hsize : ∀ b m r, front b = some (m, r) → b.length = size m + r.length)
    (ws : List (List β)) (ms : List μ) (hw : List.Forall₂ (IsFrame front) ws ms) :
    ws.map List.length = ms.map size := by
  induction hw with
  | nil => rfl
  | @cons w m ws ms hm _ ih =>
    have hlen := hsize _ _ _ (hm.whole [])
    simp only [List.append_nil, List.length_nil, Nat.add_zero] at hlen
    rw [List.map_cons, List.map_cons, hlen, ih]

/-- With a fresh parser in every call the frames are read back exactly when
each of them ends where a piece ends. -/
theorem readCalls_iff (hsize : ∀ b m r, front b = some (m, r) → b.length = size m + r.length)
    (ws : List (List β)) (ms : List μ) (hw : List.Forall₂ (IsFrame front) ws ms)
    (cs : List (List β)) (hc : ∀ c ∈ cs, c ≠ []) (hcs : cs.flatten = ws.flatten) :
    readCalls front ms.length cs = ms.map some ↔ Aligned ws cs := by
  refine ⟨fun h => ?_, readCalls_aligned ws ms hw cs hc⟩
  obtain ⟨groups, rest, rfl, hall⟩ := readCalls_split hsize ms cs h
  obtain ⟨hle, heq⟩ := lengths_of_sum size ms groups hall
  have hlens := frame_lengths hsize ws ms hw
  have htotal : groups.flatten.flatten.length + rest.flatten.length = (ms.map size).sum := by
    rw [← hlens, ← List.length_flatten, ← hcs, List.flatten_append, List.length_append]
  have hrest : rest = [] := by
    cases rest with
    | nil => rfl
    | cons c rest =>
      have hpos := List.length_pos_iff.mpr (hc c (by simp))
      simp only [List.flatten_cons, List.length_append] at htotal
      omega
  subst hrest
  rw [List.flatten_nil, List.length_nil, Nat.add_zero] at htotal
  rw [List.append_nil] at hcs
  refine ⟨groups, (List.append_nil _).symm, ?_⟩
  rw [List.eq_iff_flatten_eq, heq (le_of_eq htotal), hlens]
  exact ⟨by rw [← List.flatten_flatten, hcs], rfl⟩

end InVehicle.Framing
