import Mathlib.Data.Nat.Notation
import Mathlib.Data.List.Basic

/-!
# Fields at aligned offsets

Contents are laid one behind another, each at the next offset that its alignment
allows. An alignment is a power of two.
-/

set_option autoImplicit false

namespace InVehicle.AlignedFields

def align (val a : ℕ) : ℕ := (val + a - 1) - ((val + a - 1) &&& (a - 1))

theorem isPowerOfTwo_two : (2 : ℕ).isPowerOfTwo := ⟨1, rfl⟩

section Align

variable {x a : ℕ}

@[simp] theorem align_one : align x 1 = x := by
  rw [align, Nat.add_sub_cancel, Nat.sub_self, Nat.and_zero, Nat.sub_zero]

theorem align_eq (ha : a.isPowerOfTwo) : align x a = a * ((x + a - 1) / a) := by
  obtain ⟨k, rfl⟩ := ha
  rw [align, Nat.and_two_pow_sub_one_eq_mod]
  have h := Nat.div_add_mod (x + 2 ^ k - 1) (2 ^ k)
  omega

theorem le_align (ha : a.isPowerOfTwo) : x ≤ align x a := by
  have hpos := Nat.pos_of_isPowerOfTwo ha
  have h := Nat.div_add_mod (x + a - 1) a
  have hlt := Nat.mod_lt (x + a - 1) hpos
  rw [align_eq ha]
  omega

end Align

variable {β : Type}

/-! ## Contents -/

structure Content (β : Type) where
  alignment : ℕ
  aligned : alignment.isPowerOfTwo
  bytes : List β

namespace Content

variable (z : β) (c : Content β) (x : ℕ)

/-- The filling up to the alignment, and the content. -/
def lay : List β := List.replicate (align x c.alignment - x) z ++ c.bytes

def finish : ℕ := align x c.alignment + c.bytes.length

theorem length_lay : x + (c.lay z x).length = c.finish x := by
  have h := le_align c.aligned (x := x)
  rw [lay, finish, List.length_append, List.length_replicate]
  omega

theorem drop_lay {front : List β} (hfront : front.length = x) (rest : List β) :
    (front ++ (c.lay z x ++ rest)).drop (align x c.alignment) = c.bytes ++ rest := by
  have h := le_align c.aligned (x := x)
  have hlength : (front ++ List.replicate (align x c.alignment - x) z).length =
      align x c.alignment := by
    rw [List.length_append, List.length_replicate, hfront]
    omega
  rw [lay, List.append_assoc, ← List.append_assoc]
  exact List.drop_left' hlength

end Content

section Lay

variable (z : β)

def lay : ℕ → List (Content β) → List β
  | _, [] => []
  | x, c :: cs => c.lay z x ++ lay (c.finish x) cs

def finish (x : ℕ) (cs : List (Content β)) : ℕ := cs.foldl (fun x c => c.finish x) x

theorem length_lay (x : ℕ) (cs : List (Content β)) :
    x + (lay z x cs).length = finish x cs := by
  induction cs generalizing x with
  | nil => rfl
  | cons c cs ih =>
    have hc := c.length_lay z x
    have hcs := ih (c.finish x)
    rw [lay, List.length_append, finish, List.foldl_cons]
    rw [finish] at hcs
    omega

theorem le_finish (x : ℕ) (cs : List (Content β)) : x ≤ finish x cs := by
  induction cs generalizing x with
  | nil => exact Nat.le_refl x
  | cons c cs ih =>
    have hc : x ≤ c.finish x := Nat.le_trans (le_align c.aligned) (Nat.le_add_right _ _)
    exact Nat.le_trans hc (ih (c.finish x))

theorem finish_append (x : ℕ) (cs ds : List (Content β)) :
    finish x (cs ++ ds) = finish (finish x cs) ds := List.foldl_append

theorem lt_finish {x : ℕ} {cs : List (Content β)} (h : ∀ c ∈ cs, c.bytes ≠ [])
    (hcs : cs ≠ []) : x < finish x cs := by
  cases cs with
  | nil => exact absurd rfl hcs
  | cons c cs =>
    have hc := List.length_pos_of_ne_nil (h c List.mem_cons_self)
    have halign : x ≤ align x c.alignment := le_align c.aligned
    have hrest : c.finish x ≤ finish x (c :: cs) := le_finish (c.finish x) cs
    rw [Content.finish] at hrest
    omega

end Lay

/-! ## Reading -/

/-- The contents lie in the bytes from `x` on. -/
def LaidAt (z : β) (bytes : List β) (x : ℕ) (cs : List (Content β)) : Prop :=
  ∃ front tail, front.length = x ∧ bytes = front ++ (lay z x cs ++ tail)

namespace LaidAt

variable {z : β} {bytes : List β} {x : ℕ} {c : Content β} {cs ds : List (Content β)}

theorem tail (h : LaidAt z bytes x (c :: cs)) : LaidAt z bytes (c.finish x) cs := by
  obtain ⟨front, tail, hfront, rfl⟩ := h
  refine ⟨front ++ c.lay z x, tail, ?_, ?_⟩
  · rw [List.length_append, hfront, c.length_lay z x]
  · rw [lay, List.append_assoc, List.append_assoc]

theorem append (h : LaidAt z bytes x (cs ++ ds)) : LaidAt z bytes (finish x cs) ds := by
  induction cs generalizing x with
  | nil => exact h
  | cons c cs ih => exact ih h.tail

theorem drop_eq (h : LaidAt z bytes x (c :: cs)) :
    ∃ rest, bytes.drop (align x c.alignment) = c.bytes ++ rest := by
  obtain ⟨front, tail, hfront, rfl⟩ := h
  refine ⟨lay z (c.finish x) cs ++ tail, ?_⟩
  rw [lay, List.append_assoc]
  exact c.drop_lay z x hfront _

theorem take_eq (h : LaidAt z bytes x (c :: cs)) :
    (bytes.drop (align x c.alignment)).take c.bytes.length = c.bytes := by
  obtain ⟨rest, hrest⟩ := h.drop_eq
  rw [hrest, List.take_left]

theorem finish_le (h : LaidAt z bytes x (c :: cs)) : c.finish x ≤ bytes.length := by
  obtain ⟨front, tail, hfront, rfl⟩ := h
  have hlay := c.length_lay z x
  rw [lay, List.append_assoc, List.length_append, List.length_append, hfront]
  omega

end LaidAt

end InVehicle.AlignedFields
