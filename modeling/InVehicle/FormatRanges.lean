import InVehicle.FormatLaws

/-!
# Inputs that are read whole

A format reads all of an input, or a range reads it item by item. Inputs that are
each read whole are the items of their concatenation.
-/

set_option autoImplicit false

namespace InVehicle.FormatRanges
open InVehicle.Formats InVehicle.Formats.Format InVehicle.FormatLaws

section Whole
variable {τ α β : Type} {f : Format τ α} {n : ℕ}

def Whole (f : Format τ α) (b : List τ) : Prop := ∃ a, f.parse b = .ok (a, [])

theorem whole_map (decode : α → β) (encode : β → α) (b : List τ) :
    Whole (f.map decode encode) b ↔ Whole f b := by
  simp only [Whole, map_parse]
  exact ⟨fun ⟨_, a, h, _⟩ => ⟨a, h⟩, fun ⟨a, h⟩ => ⟨_, a, h, rfl⟩⟩

theorem whole_variant (decode : α → β) (encode : β → Option α) (b : List τ) :
    Whole (f.variant decode encode) b ↔ Whole f b := by
  simp only [Whole, variant_parse]
  exact ⟨fun ⟨_, a, h, _⟩ => ⟨a, h⟩, fun ⟨a, h⟩ => ⟨_, a, h, rfl⟩⟩

theorem whole_bytes (n : ℤ) (b : List τ) : Whole (bytes n) b ↔ (b.length : ℤ) = n := by
  simp only [Whole, bytes_parse, List.append_nil]
  exact ⟨fun ⟨_, hb, hn⟩ => hb ▸ hn, fun h => ⟨b, rfl, h⟩⟩

theorem whole_sized [Sized f n] (b : List τ) : Whole f b ↔ b.length = n := sized_whole b

theorem whole_pair {g : Format τ β} [hf : Sized f n] (b : List τ) :
    Whole (f.pair g) b ↔ n ≤ b.length ∧ Whole g (b.drop n) := by
  constructor
  · rintro ⟨p, h⟩
    obtain ⟨s, hs, hx⟩ := (seq_parse _ _).mp h
    obtain ⟨hn, rfl⟩ := sized_drop hs
    exact ⟨hn, p.2, hx⟩
  · rintro ⟨hn, x, hx⟩
    obtain ⟨a, ha⟩ := hf.enough b hn
    exact ⟨(a, x), (seq_parse _ _).mpr ⟨_, ha, hx⟩⟩

end Whole

section Range
variable {τ α : Type} {f : Format τ α} [hl : Local f]

theorem range_front (hc : Consumes f) {b s t : List τ} {a : α}
    (h : f.parse (b ++ s) = .ok (a, s)) :
    f.range (b ++ t) = ((b, a) :: (f.range t).1, (f.range t).2) := by
  obtain ⟨u, hu, hlocal⟩ := hl.taken _ a s h
  obtain rfl := List.append_cancel_right hu
  rw [range_ok f hc (hlocal t), List.length_append, Nat.add_sub_cancel, List.take_left]

theorem range_cons (hc : Consumes f) {b u : List τ} {a : α} {ps : List (List τ × α)}
    (h : (f.range b).1 = (u, a) :: ps) :
    ∃ s, f.parse b = .ok (a, s) ∧ b = u ++ s ∧ f.range s = (ps, (f.range b).2) := by
  cases hp : f.parse b with
  | error e =>
    rw [range_error f hp] at h
    cases h
  | ok p =>
    obtain ⟨x, s⟩ := p
    obtain ⟨w, rfl, -⟩ := hl.taken b x s hp
    have hrange := range_front hc (t := s) hp
    rw [hrange] at h
    cases h
    exact ⟨s, rfl, rfl, by rw [hrange]⟩

def Read (f : Format τ α) (ps : List (List τ × α)) : Prop := ∀ p ∈ ps, f.parse p.1 = .ok (p.2, [])

theorem range_flatten (hc : Consumes f) (us : List (List τ)) (h : ∀ u ∈ us, Whole f u) :
    ∃ ps, ps.map Prod.fst = us ∧ Read f ps ∧
      ∀ r, f.range (us.flatten ++ r) = (ps ++ (f.range r).1, (f.range r).2) := by
  induction us with
  | nil => exact ⟨[], rfl, by simp [Read], fun r => rfl⟩
  | cons u us ih =>
    obtain ⟨⟨a, ha⟩, hus⟩ := List.forall_mem_cons.mp h
    obtain ⟨ps, hfst, hread, hrange⟩ := ih hus
    refine ⟨(u, a) :: ps, by rw [List.map_cons, hfst], List.forall_mem_cons.mpr ⟨ha, hread⟩,
      fun r => ?_⟩
    have hfront := range_front hc (s := []) (t := us.flatten ++ r) ((List.append_nil u).symm ▸ ha)
    rw [List.flatten_cons, List.append_assoc, hfront, hrange]
    rfl

theorem range_read (hc : Consumes f) (n : ℕ) (b : List τ) (hn : b.length = n) :
    Read f (f.range b).1 := by
  induction n using Nat.strong_induction_on generalizing b with
  | _ n ih =>
    cases hr : (f.range b).1 with
    | nil => simp [Read]
    | cons p ps =>
      obtain ⟨s, hp, hb, hrange⟩ := range_cons hc hr
      have hlt := hc b p.2 s hp
      have hs := ih s.length (by omega) s rfl
      rw [hrange] at hs
      obtain ⟨u, hu, hlocal⟩ := hl.taken b p.2 s hp
      have heq : p.1 = u := List.append_cancel_right (hb.symm.trans hu)
      refine List.forall_mem_cons.mpr ⟨?_, hs⟩
      have hnil := hlocal []
      rwa [List.append_nil, ← heq] at hnil

theorem range_leftover (hc : Consumes f) (n : ℕ) (b : List τ) (hn : b.length = n) :
    ((f.range b).1.map Prod.fst).flatten ++ (f.range b).2 = b := by
  induction n using Nat.strong_induction_on generalizing b with
  | _ n ih =>
    cases hr : (f.range b).1 with
    | nil =>
      cases hp : f.parse b with
      | error e => rw [range_error f hp]; rfl
      | ok q =>
        rw [range_ok f hc hp] at hr
        cases hr
    | cons p ps =>
      obtain ⟨s, hp, hb, hrange⟩ := range_cons hc hr
      have hlt := hc b p.2 s hp
      have hs := ih s.length (by omega) s rfl
      rw [hrange] at hs
      rw [List.map_cons, List.flatten_cons, List.append_assoc, hs]
      exact hb.symm

theorem range_append (hc : Consumes f) {b : List τ} (h : (f.range b).2 = []) (r : List τ) :
    f.range (b ++ r) = ((f.range b).1 ++ (f.range r).1, (f.range r).2) := by
  have hread := range_read hc b.length b rfl
  have hwhole : ∀ u ∈ (f.range b).1.map Prod.fst, Whole f u := by
    intro u hu
    obtain ⟨p, hp, rfl⟩ := List.mem_map.mp hu
    exact ⟨p.2, hread p hp⟩
  obtain ⟨ps, -, -, hrange⟩ := range_flatten hc _ hwhole
  have hflatten := range_leftover hc b.length b rfl
  rw [h, List.append_nil] at hflatten
  rw [hflatten] at hrange
  have hnil : f.range [] = ([], []) := rfl
  have hself := hrange []
  rw [List.append_nil, hnil, List.append_nil] at hself
  rw [hrange, hself]

end Range

end InVehicle.FormatRanges
