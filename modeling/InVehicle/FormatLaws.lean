import InVehicle.Formats

/-!
# Laws of the format combinators

Each law holds of a combination if it holds of the parts, and is found there by
instance search.
-/

set_option autoImplicit false

namespace InVehicle.FormatLaws
open InVehicle.Words InVehicle.Formats InVehicle.Formats.Format

variable {τ δ α β : Type}

class Local (f : Format τ α) : Prop where
  taken : ∀ b a s, f.parse b = .ok (a, s) → ∃ u, b = u ++ s ∧ ∀ t, f.parse (u ++ t) = .ok (a, t)

class Invertible (f : Format τ α) : Prop where
  written : ∀ b a s, f.parse b = .ok (a, s) → ∃ u, b = u ++ s ∧ f.build a = .ok u

/-- Exactly `n` tokens are taken, and any `n` will do. -/
class Sized (f : Format τ α) (n : outParam ℕ) : Prop where
  enough : ∀ b, n ≤ b.length → ∃ a, f.parse b = .ok (a, b.drop n)
  short : ∀ b, b.length < n → ∃ e, f.parse b = .error e

/-- An input is accepted exactly if it has `n` tokens, whatever they are. -/
class Demands (f : Format τ α) (n : outParam ℕ) : Prop where
  accepts : ∀ b, (∃ v s, f.parse b = .ok (v, s)) ↔ n ≤ b.length

/-- Writing takes as many tokens as were read, and they are the same exactly if
`Q` holds of the tokens that were read. -/
def Rebuilds (f : Format τ α) (Q : List τ → Prop) : Prop :=
  ∀ b a s, f.parse b = .ok (a, s) →
    ∃ u w, b = u ++ s ∧ f.build a = .ok w ∧ w.length = u.length ∧ (w = u ↔ Q u)

/-- What is read from `b` is written as all of `b` exactly if `P`. -/
def Restores (f : Format τ α) (b : List τ) (P : Prop) : Prop :=
  ∀ a s, f.parse b = .ok (a, s) → ∃ w, f.build a = .ok w ∧ (w = b ↔ P)

section Local
variable {f : Format τ α} {g : α → Format τ β}

instance local_const (a : α) : Local (const a : Format τ α) where
  taken := by
    rintro b a s ⟨⟩
    exact ⟨[], rfl, fun t => rfl⟩

instance local_fail (e : Failure) : Local (fail e : Format τ α) where
  taken := by rintro b a s ⟨⟩

instance local_bytes (n : ℤ) : Local (bytes n : Format τ (List τ)) where
  taken b v s h := by
    obtain ⟨hb, hn⟩ := bytes_parse.mp h
    exact ⟨v, hb, fun t => bytes_parse.mpr ⟨rfl, hn⟩⟩

instance local_adapt [hf : Local f] (decode : α → Except Failure β)
    (encode : β → Except Failure α) : Local (f.adapt decode encode) where
  taken b v s h := by
    obtain ⟨a, ha, hd⟩ := (adapt_parse f).mp h
    obtain ⟨u, hu, hlocal⟩ := hf.taken b a s ha
    exact ⟨u, hu, fun t => (adapt_parse f).mpr ⟨a, hlocal t, hd⟩⟩

instance local_map [Local f] (decode : α → β) (encode : β → α) :
    Local (f.map decode encode) := local_adapt _ _

instance local_variant [Local f] (decode : α → β) (encode : β → Option α) :
    Local (f.variant decode encode) := local_adapt _ _

instance local_seq [hf : Local f] [hg : ∀ a, Local (g a)] : Local (f.seq g) where
  taken b p t h := by
    obtain ⟨s, hs, ht⟩ := (seq_parse f g).mp h
    obtain ⟨u, hu, hlocal⟩ := hf.taken b p.1 s hs
    obtain ⟨w, hw, hlocal'⟩ := (hg p.1).taken s p.2 t ht
    refine ⟨u ++ w, by rw [hu, hw, List.append_assoc], fun r => ?_⟩
    rw [List.append_assoc]
    exact (seq_parse f g).mpr ⟨w ++ r, hlocal _, hlocal' r⟩

instance local_pair {g : Format τ β} [Local f] [Local g] : Local (f.pair g) := local_seq

instance local_ite {g : Format τ α} [Local f] [Local g] (c : Prop) [Decidable c] :
    Local (if c then f else g) := by
  split_ifs <;> infer_instance

instance local_optional [Local f] (c : Bool) : Local (f.optional c) := local_ite _

instance local_times [Local f] (n : ℕ) : Local (f.times n) := by
  induction n with
  | zero =>
    constructor
    rintro b a s ⟨⟩
    exact ⟨[], rfl, fun t => rfl⟩
  | succ n ih => exact local_variant _ _

instance local_array [Local f] (n : ℤ) : Local (f.array n) := local_ite _

instance local_token : Local (token : Format τ τ) where
  taken b x s h := by
    cases b with
    | nil => cases h
    | cons y b =>
      cases h
      exact ⟨[x], rfl, fun t => rfl⟩

instance local_be (D : Digit δ) (k : ℕ) : Local (be D k) := local_adapt _ _

instance local_le (D : Digit δ) (k : ℕ) : Local (le D k) := local_adapt _ _

end Local

section Invertible
variable {f : Format τ α} {g : α → Format τ β}

instance invertible_const (a : α) : Invertible (const a : Format τ α) where
  written := by
    rintro b a s ⟨⟩
    exact ⟨[], rfl, rfl⟩

instance invertible_fail (e : Failure) : Invertible (fail e : Format τ α) where
  written := by rintro b a s ⟨⟩

instance invertible_bytes (n : ℤ) : Invertible (bytes n : Format τ (List τ)) where
  written b v s h := by
    obtain ⟨hb, hn⟩ := bytes_parse.mp h
    exact ⟨v, hb, if_pos hn⟩

instance invertible_greedyBytes : Invertible (greedyBytes : Format τ (List τ)) where
  written := by
    rintro b v s ⟨⟩
    exact ⟨b, (List.append_nil b).symm, rfl⟩

theorem invertible_adapt [hf : Invertible f] {decode : α → Except Failure β}
    {encode : β → Except Failure α}
    (h : ∀ b a s v, f.parse b = .ok (a, s) → decode a = .ok v → encode v = .ok a) :
    Invertible (f.adapt decode encode) where
  written b v s hp := by
    obtain ⟨a, ha, hd⟩ := (adapt_parse f).mp hp
    obtain ⟨u, hu, hbuild⟩ := hf.written b a s ha
    exact ⟨u, hu, by rw [adapt_build f (h b a s v ha hd), hbuild]⟩

theorem invertible_map [Invertible f] {decode : α → β} {encode : β → α}
    (h : ∀ a, encode (decode a) = a) : Invertible (f.map decode encode) := by
  apply invertible_adapt
  rintro b a s v - ⟨⟩
  rw [h]

theorem invertible_variant [Invertible f] {decode : α → β} {encode : β → Option α}
    (h : ∀ a, encode (decode a) = some a) : Invertible (f.variant decode encode) := by
  apply invertible_adapt
  rintro b a s v - ⟨⟩
  simp only [h]

instance invertible_seq [hf : Invertible f] [hg : ∀ a, Invertible (g a)] :
    Invertible (f.seq g) where
  written b p t h := by
    obtain ⟨s, hs, ht⟩ := (seq_parse f g).mp h
    obtain ⟨u, hu, hbuild⟩ := hf.written b p.1 s hs
    obtain ⟨w, hw, hbuild'⟩ := (hg p.1).written s p.2 t ht
    exact ⟨u ++ w, by rw [hu, hw, List.append_assoc], seq_build f g hbuild hbuild'⟩

instance invertible_pair {g : Format τ β} [Invertible f] [Invertible g] :
    Invertible (f.pair g) := invertible_seq

instance invertible_ite {g : Format τ α} [Invertible f] [Invertible g] (c : Prop) [Decidable c] :
    Invertible (if c then f else g) := by
  split_ifs <;> infer_instance

instance invertible_optional [Invertible f] (c : Bool) : Invertible (f.optional c) := by
  cases c with
  | false => exact invertible_const none
  | true => exact invertible_variant fun _ => rfl

instance invertible_absent (f : Format τ α) : Invertible (f.optional false) :=
  invertible_const none

instance invertible_times [Invertible f] (n : ℕ) : Invertible (f.times n) := by
  induction n with
  | zero =>
    constructor
    rintro b a s ⟨⟩
    exact ⟨[], rfl, rfl⟩
  | succ n ih => exact invertible_variant fun _ => rfl

instance invertible_array [Invertible f] (n : ℤ) : Invertible (f.array n) := invertible_ite _

instance invertible_token : Invertible (token : Format τ τ) where
  written b x s h := by
    cases b with
    | nil => cases h
    | cons y b =>
      cases h
      exact ⟨[x], rfl, rfl⟩

instance invertible_be (D : Digit δ) (k : ℕ) : Invertible (be D k) := by
  apply invertible_adapt
  rintro b ds s n hp ⟨⟩
  obtain ⟨-, hk⟩ := bytes_parse.mp hp
  have hlen : ds.length = k := by omega
  rw [← hlen, if_pos (D.ofBe_lt ds), D.be_ofBe]

instance invertible_le (D : Digit δ) (k : ℕ) : Invertible (le D k) := by
  apply invertible_adapt
  rintro b ds s n hp ⟨⟩
  obtain ⟨-, hk⟩ := bytes_parse.mp hp
  have hlen : ds.length = k := by omega
  rw [← hlen, if_pos (D.ofLe_lt ds), D.le_ofLe]

end Invertible

section Sized
variable {f : Format τ α} {g : α → Format τ β} {m n : ℕ}

theorem sized_whole [hf : Sized f n] (b : List τ) :
    (∃ a, f.parse b = .ok (a, [])) ↔ b.length = n := by
  by_cases h : n ≤ b.length
  · obtain ⟨a, ha⟩ := hf.enough b h
    rw [ha]
    simp only [Except.ok.injEq, Prod.mk.injEq, exists_and_right, exists_eq', true_and,
      List.drop_eq_nil_iff]
    omega
  · obtain ⟨e, he⟩ := hf.short b (by omega)
    rw [he]
    simp only [reduceCtorEq, exists_false, false_iff]
    omega

theorem sized_drop [hf : Sized f n] {b s : List τ} {a : α} (h : f.parse b = .ok (a, s)) :
    n ≤ b.length ∧ s = b.drop n := by
  by_cases hn : n ≤ b.length
  · obtain ⟨a', ha⟩ := hf.enough b hn
    rw [ha] at h
    cases h
    exact ⟨hn, rfl⟩
  · obtain ⟨e, he⟩ := hf.short b (by omega)
    rw [he] at h
    cases h

theorem sized_front [hf : Sized f n] (u s : List τ) (h : u.length = n) :
    ∃ a, f.parse (u ++ s) = .ok (a, s) := by
  obtain ⟨a, ha⟩ := hf.enough (u ++ s) (by rw [List.length_append]; omega)
  rw [List.drop_left' h] at ha
  exact ⟨a, ha⟩

theorem sized_taken [Sized f n] {b u s : List τ} {a : α} (h : f.parse b = .ok (a, s))
    (hu : b = u ++ s) : u.length = n := by
  obtain ⟨hn, hs⟩ := sized_drop h
  have hl := congrArg List.length hu
  rw [hs, List.length_append, List.length_drop] at hl
  omega

instance sized_const (a : α) : Sized (const a : Format τ α) 0 :=
  ⟨fun _ _ => ⟨a, rfl⟩, fun _ h => absurd h (Nat.not_lt_zero _)⟩

instance sized_bytes (n : ℕ) : Sized (bytes n : Format τ (List τ)) n := by
  constructor
  · intro b h
    exact ⟨b.take n, if_pos ⟨by omega, by omega⟩⟩
  · intro b h
    exact ⟨.construct, if_neg (by omega)⟩

theorem sized_adapt [hf : Sized f n] {decode : α → Except Failure β}
    {encode : β → Except Failure α} (h : ∀ a, ∃ v, decode a = .ok v) :
    Sized (f.adapt decode encode) n := by
  constructor
  · intro b hb
    obtain ⟨a, ha⟩ := hf.enough b hb
    obtain ⟨v, hv⟩ := h a
    exact ⟨v, (adapt_parse f).mpr ⟨a, ha, hv⟩⟩
  · intro b hb
    obtain ⟨e, he⟩ := hf.short b hb
    exact ⟨e, by simp only [adapt, he]; rfl⟩

instance sized_map [Sized f n] (decode : α → β) (encode : β → α) :
    Sized (f.map decode encode) n := sized_adapt fun a => ⟨decode a, rfl⟩

instance sized_variant [Sized f n] (decode : α → β) (encode : β → Option α) :
    Sized (f.variant decode encode) n := sized_adapt fun a => ⟨decode a, rfl⟩

instance sized_seq [hf : Sized f m] [hg : ∀ a, Sized (g a) n] : Sized (f.seq g) (m + n) := by
  constructor
  · intro b hb
    obtain ⟨a, ha⟩ := hf.enough b (by omega)
    obtain ⟨x, hx⟩ := (hg a).enough (b.drop m) (by rw [List.length_drop]; omega)
    rw [List.drop_drop] at hx
    exact ⟨(a, x), (seq_parse f g).mpr ⟨_, ha, hx⟩⟩
  · intro b hb
    by_cases hm : m ≤ b.length
    · obtain ⟨a, ha⟩ := hf.enough b hm
      obtain ⟨e, he⟩ := (hg a).short (b.drop m) (by rw [List.length_drop]; omega)
      exact ⟨e, by simp only [seq, ha, bind, Except.bind, he]⟩
    · obtain ⟨e, he⟩ := hf.short b (by omega)
      exact ⟨e, by simp only [seq, he, bind, Except.bind]⟩

instance sized_pair {g : Format τ β} [Sized f m] [Sized g n] : Sized (f.pair g) (m + n) :=
  sized_seq

instance sized_optional [Sized f n] (c : Bool) : Sized (f.optional c) (if c then n else 0) := by
  cases c with
  | false => exact sized_const none
  | true => exact sized_variant _ _

instance sized_absent (f : Format τ α) : Sized (f.optional false) 0 := sized_const none

instance sized_times [Sized f m] (n : ℕ) : Sized (f.times n) (n * m) := by
  induction n with
  | zero => exact ⟨fun b _ => ⟨[], by simp [times, Format.nil]⟩, fun _ h => by simp at h⟩
  | succ n ih =>
    rw [Nat.succ_mul, Nat.add_comm (n * m)]
    exact sized_variant _ _

theorem pair_enough {g : Format τ β} [hf : Sized f n] {P : β → Prop} {b s : List τ}
    (hb : n ≤ b.length) (hg : ∃ x, g.parse (b.drop n) = .ok (x, s) ∧ P x) :
    ∃ p, (f.pair g).parse b = .ok (p, s) ∧ P p.2 := by
  obtain ⟨a, ha⟩ := hf.enough b hb
  obtain ⟨x, hx, hp⟩ := hg
  exact ⟨(a, x), (seq_parse _ _).mpr ⟨_, ha, hx⟩, hp⟩

theorem times_parse {p : α → Prop} (hf : ∀ b a s, f.parse b = .ok (a, s) → p a) (n : ℕ)
    (b as s : List _) (h : (f.times n).parse b = .ok (as, s)) :
    as.length = n ∧ ∀ a ∈ as, p a := by
  induction n generalizing b as with
  | zero =>
    cases h
    simp
  | succ n ih =>
    obtain ⟨⟨a, as⟩, hp, rfl⟩ := (variant_parse _).mp h
    obtain ⟨r, ha, has⟩ := (seq_parse _ _).mp hp
    obtain ⟨hlen, hall⟩ := ih r as has
    exact ⟨congrArg (· + 1) hlen, List.forall_mem_cons.mpr ⟨hf b a r ha, hall⟩⟩

theorem array_parse {ι : Type} {write : ι → List τ} {value : ι → α}
    (hf : ∀ x s, f.parse (write x ++ s) = .ok (value x, s)) (xs : List ι) (s : List τ) :
    (array xs.length f).parse (xs.flatMap write ++ s) = .ok (xs.map value, s) := by
  rw [array, if_pos (by omega), Int.toNat_natCast]
  induction xs with
  | nil => rfl
  | cons x xs ih =>
    rw [List.flatMap_cons, List.append_assoc]
    exact (variant_parse _).mpr ⟨(value x, _), (seq_parse _ _).mpr ⟨_, hf x _, ih⟩, rfl⟩

instance sized_array [Sized f m] (n : ℕ) : Sized (f.array n) (n * m) := by
  rw [array, if_pos (Int.natCast_nonneg n), Int.toNat_natCast]
  infer_instance

instance sized_token : Sized (token : Format τ τ) 1 := by
  constructor
  · intro b hb
    cases b with
    | nil => simp at hb
    | cons x b => exact ⟨x, rfl⟩
  · intro b hb
    cases b with
    | nil => exact ⟨.construct, rfl⟩
    | cons x b => simp at hb

theorem bytes_parse_take (k : ℕ) {b v s : List τ} : (bytes k).parse b = .ok (v, s) ↔
    k ≤ b.length ∧ v = b.take k ∧ s = b.drop k := by
  rw [bytes_parse]
  constructor
  · rintro ⟨rfl, hk⟩
    have hlen : v.length = k := by omega
    simp [← hlen]
  · rintro ⟨hk, rfl, rfl⟩
    rw [List.take_append_drop, List.length_take]
    exact ⟨rfl, by omega⟩

theorem be_parse_iff (D : Digit δ) (k : ℕ) {b s : List δ} {n : ℕ} :
    (be D k).parse b = .ok (n, s) ↔ k ≤ b.length ∧ n = D.ofBe (b.take k) ∧ s = b.drop k := by
  simp only [be, adapt_parse, bytes_parse_take, Except.ok.injEq]
  constructor
  · rintro ⟨ds, ⟨hk, rfl, rfl⟩, rfl⟩
    exact ⟨hk, rfl, rfl⟩
  · rintro ⟨hk, rfl, rfl⟩
    exact ⟨_, ⟨hk, rfl, rfl⟩, rfl⟩

theorem le_parse_iff (D : Digit δ) (k : ℕ) {b s : List δ} {n : ℕ} :
    (le D k).parse b = .ok (n, s) ↔ k ≤ b.length ∧ n = D.ofLe (b.take k) ∧ s = b.drop k := by
  simp only [le, adapt_parse, bytes_parse_take, Except.ok.injEq]
  constructor
  · rintro ⟨ds, ⟨hk, rfl, rfl⟩, rfl⟩
    exact ⟨hk, rfl, rfl⟩
  · rintro ⟨hk, rfl, rfl⟩
    exact ⟨_, ⟨hk, rfl, rfl⟩, rfl⟩

theorem be_parse_lt (D : Digit δ) (k : ℕ) {b s : List δ} {n : ℕ}
    (h : (be D k).parse b = .ok (n, s)) : n < D.base ^ k := by
  obtain ⟨hk, rfl, -⟩ := (be_parse_iff D k).mp h
  have hlt := D.ofBe_lt (b.take k)
  rwa [List.length_take, min_eq_left hk] at hlt

theorem be_parse (D : Digit δ) (k n : ℕ) (s : List δ) (h : n < D.base ^ k) :
    (be D k).parse (D.be k n ++ s) = .ok (n, s) := by
  have hlen := D.length_be k n
  refine (be_parse_iff D k).mpr ⟨by rw [List.length_append]; omega, ?_, ?_⟩
  · rw [List.take_left' hlen, D.ofBe_be k n h]
  · rw [List.drop_left' hlen]

theorem le_parse (D : Digit δ) (k n : ℕ) (s : List δ) (h : n < D.base ^ k) :
    (le D k).parse (D.le k n ++ s) = .ok (n, s) := by
  have hlen := D.length_le k n
  refine (le_parse_iff D k).mpr ⟨by rw [List.length_append]; omega, ?_, ?_⟩
  · rw [List.take_left' hlen, D.ofLe_le k n h]
  · rw [List.drop_left' hlen]

instance sized_be (D : Digit δ) (k : ℕ) : Sized (be D k) k :=
  sized_adapt fun _ => ⟨_, rfl⟩

instance sized_le (D : Digit δ) (k : ℕ) : Sized (le D k) k :=
  sized_adapt fun _ => ⟨_, rfl⟩

theorem consumes_seq [Sized f n] [hg : ∀ a, Local (g a)] (hn : 0 < n) : Consumes (f.seq g) := by
  intro b p t h
  obtain ⟨s, hs, ht⟩ := (seq_parse f g).mp h
  obtain ⟨hlen, rfl⟩ := sized_drop hs
  obtain ⟨u, hu, -⟩ := (hg p.1).taken _ p.2 t ht
  have hdrop := congrArg List.length hu
  rw [List.length_drop, List.length_append] at hdrop
  omega

theorem consumes_map (hf : Consumes f) (decode : α → β) (encode : β → α) :
    Consumes (f.map decode encode) := by
  intro b v s h
  obtain ⟨a, ha, -⟩ := (adapt_parse f).mp h
  exact hf b a s ha

end Sized

section BitStruct
variable {f : Format Bool α} {n : ℕ}

@[simp] theorem length_unpack (swapped : Bool) (b : UInt8) : (unpack swapped b).length = 8 := by
  cases swapped <;> simp [unpack]

theorem length_unpackAll (swapped : Bool) (bs : List UInt8) :
    (bs.flatMap (unpack swapped)).length = 8 * bs.length := by
  induction bs with
  | nil => rfl
  | cons b bs ih =>
    rw [List.flatMap_cons, List.length_append, length_unpack, ih, List.length_cons]
    omega

theorem bitStruct_parse {swapped : Bool} {u s : List UInt8} {a : α} (hn : u.length = n)
    (h : f.parseAll (u.flatMap (unpack swapped)) = .ok a) :
    (bitStruct swapped n f).parse (u ++ s) = .ok (a, s) :=
  (adapt_parse _).mpr ⟨u, bytes_parse.mpr ⟨rfl, by rw [hn]⟩, h⟩

theorem pack_unpack (swapped : Bool) (bs : List UInt8) :
    pack swapped bs.length (bs.flatMap (unpack swapped)) = bs := by
  induction bs with
  | nil => rfl
  | cons b bs ih =>
    rw [List.flatMap_cons, List.length_cons, pack, List.take_left' (length_unpack swapped b),
      List.drop_left' (length_unpack swapped b), ih]
    cases swapped <;> simp [unpack, ofByteBits_byteBits]

instance local_bitStruct (swapped : Bool) : Local (bitStruct swapped n f) := local_adapt _ _

theorem sized_parseAll [Sized f n] (bits : List Bool) (h : bits.length = n) :
    ∃ a, f.parse bits = .ok (a, []) ∧ f.parseAll bits = .ok a := by
  obtain ⟨a, ha⟩ := (sized_whole (f := f) bits).mpr h
  exact ⟨a, ha, by rw [parseAll, ha]; rfl⟩

theorem invertible_bitStruct [hf : Invertible f] (hs : Sized f (8 * n)) (swapped : Bool) :
    Invertible (bitStruct swapped n f) := by
  apply invertible_adapt
  intro b bs s v hp hd
  obtain ⟨-, hk⟩ := bytes_parse.mp hp
  have hlen : (bs.flatMap (unpack swapped)).length = 8 * n := by
    rw [length_unpackAll]
    omega
  obtain ⟨a, ha, hall⟩ := sized_parseAll (f := f) _ hlen
  rw [hall] at hd
  cases hd
  obtain ⟨u, hu, hbuild⟩ := hf.written _ _ _ ha
  rw [List.append_nil] at hu
  have hn : bs.length = n := by omega
  rw [hbuild, ← hu, ← hn]
  simp only [bind, Except.bind, length_unpackAll, if_true, pack_unpack]

theorem sized_bitStruct (hs : Sized f (8 * n)) (swapped : Bool) :
    Sized (bitStruct swapped n f) n := by
  constructor
  · intro b hb
    have hlen : ((b.take n).flatMap (unpack swapped)).length = 8 * n := by
      rw [length_unpackAll, List.length_take]
      omega
    obtain ⟨a, -, hall⟩ := sized_parseAll (f := f) _ hlen
    refine ⟨a, (adapt_parse _).mpr ⟨b.take n, bytes_parse.mpr ⟨?_, ?_⟩, hall⟩⟩
    · exact (List.take_append_drop n b).symm
    · rw [List.length_take]
      omega
  · intro b hb
    obtain ⟨e, he⟩ := (sized_bytes n).short b hb
    exact ⟨e, by simp only [bitStruct, adapt, he, bind, Except.bind]⟩

end BitStruct

section Rebuilds
variable {f : Format τ α} {g : α → Format τ β} {Q : List τ → Prop} {P : Prop} {n : ℕ} {b : List τ}

theorem rebuilds_of_invertible [hf : Invertible f] : Rebuilds f fun _ => True := by
  intro b a s h
  obtain ⟨u, hu, hbuild⟩ := hf.written b a s h
  exact ⟨u, u, hu, hbuild, rfl, by simp⟩

theorem rebuilds_variant (hf : Rebuilds f Q) {decode : α → β}
    {encode : β → Option α} (h : ∀ a, encode (decode a) = some a) :
    Rebuilds (f.variant decode encode) Q := by
  intro b v s hp
  obtain ⟨a, ha, rfl⟩ := (variant_parse f).mp hp
  obtain ⟨u, w, hu, hbuild, hrest⟩ := hf b a s ha
  exact ⟨u, w, hu, by rw [variant_build f (h a), hbuild], hrest⟩

theorem rebuilds_seq [hf : Invertible f] [Sized f n]
    (hg : ∀ a, Rebuilds (g a) Q) : Rebuilds (f.seq g) fun u => Q (u.drop n) := by
  intro b p t h
  obtain ⟨s, ha, hx⟩ := (seq_parse f g).mp h
  obtain ⟨u, hu, hbuild⟩ := hf.written b p.1 s ha
  obtain ⟨u', w', hu', hbuild', hlen, hiff⟩ := hg p.1 s p.2 t hx
  refine ⟨u ++ u', u ++ w', by rw [hu, hu', List.append_assoc], seq_build f g hbuild hbuild',
    by simp [hlen], ?_⟩
  beta_reduce
  rw [List.append_cancel_left_eq, hiff, List.drop_left' (sized_taken ha hu)]

/-- The items of a range are written back as they were read exactly if each is,
where `Q` tells of the tokens of an item whether it is. -/
theorem range_rebuilt (hc : Consumes f) (hf : Rebuilds f Q)
    (n : ℕ) (b : List τ) (hn : b.length = n) :
    ∃ u w, b = u ++ (f.range b).2 ∧ f.buildAll ((f.range b).1.map Prod.snd) = .ok w ∧
      w.length = u.length ∧ (w = u ↔ ∀ p ∈ (f.range b).1, Q p.1) := by
  induction n using Nat.strong_induction_on generalizing b with
  | _ n ih =>
    cases hp : f.parse b with
    | error e =>
      rw [range_error f hp]
      exact ⟨[], [], rfl, rfl, rfl, by simp⟩
    | ok p =>
      obtain ⟨a, s⟩ := p
      obtain ⟨u, w, hu, hbuild, hlen, hiff⟩ := hf b a s hp
      have hlt := hc b a s hp
      obtain ⟨u', w', hu', hbuild', hlen', hiff'⟩ := ih s.length (by omega) s rfl
      have htake : b.take (b.length - s.length) = u := by
        rw [hu, List.length_append, Nat.add_sub_cancel, List.take_left]
      rw [range_ok f hc hp, htake]
      refine ⟨u ++ u', w ++ w', by rw [List.append_assoc, ← hu', ← hu], ?_, by simp [hlen, hlen'],
        ?_⟩
      · simp only [List.map_cons, buildAll, hbuild, hbuild']
        rfl
      · rw [List.forall_mem_cons, ← hiff, ← hiff']
        constructor
        · exact fun h => List.append_inj h hlen
        · rintro ⟨rfl, rfl⟩
          rfl

theorem restores_range (hc : Consumes f) (hf : Rebuilds f Q) :
    Restores f.greedyRange b ((f.range b).2 = [] ∧ ∀ p ∈ (f.range b).1, Q p.1) := by
  rintro as s ⟨⟩
  obtain ⟨u, w, hu, hbuild, hlen, hiff⟩ := range_rebuilt hc hf b.length b rfl
  refine ⟨w, hbuild, ?_⟩
  rw [← hiff]
  constructor
  · intro hw
    have hl := congrArg List.length hu
    rw [List.length_append, ← hlen, hw] at hl
    have hnil := List.length_eq_zero_iff.mp (show (f.range b).2.length = 0 by omega)
    rw [hnil, List.append_nil] at hu
    exact ⟨hnil, hw.trans hu⟩
  · rintro ⟨hnil, rfl⟩
    rw [hnil, List.append_nil] at hu
    exact hu.symm

theorem restores_range_greedyBytes (hc : Consumes f) (hf : Rebuilds f Q) :
    Restores (f.greedyRange.pair greedyBytes) b (∀ p ∈ (f.range b).1, Q p.1) := by
  rintro p t h
  obtain ⟨s, hp, hx⟩ := (seq_parse _ _).mp h
  obtain ⟨u, w, hu, hbuild, hlen, hiff⟩ := range_rebuilt hc hf b.length b rfl
  obtain ⟨as, x⟩ := p
  cases hp
  cases hx
  refine ⟨w ++ (f.range b).2, seq_build _ _ hbuild rfl, ?_⟩
  rw [← hiff]
  nth_rewrite 2 [hu]
  exact List.append_cancel_right_eq w _ u ▸ Iff.rfl

theorem restores_sized [hf : Invertible f] [Sized f n] : Restores f b (b.length = n) := by
  intro a s h
  obtain ⟨u, hu, hbuild⟩ := hf.written b a s h
  refine ⟨u, hbuild, ?_⟩
  have hlen := congrArg List.length hu
  rw [List.length_append, sized_taken h hu] at hlen
  rw [hlen, hu]
  simp

theorem restores_all [hf : Invertible f] (h : ∀ a s, f.parse b = .ok (a, s) → s = []) :
    Restores f b True := by
  intro a s hp
  obtain ⟨u, hu, hbuild⟩ := hf.written b a s hp
  rw [h a s hp, List.append_nil] at hu
  exact ⟨u, hbuild, iff_of_true hu.symm trivial⟩

theorem restores_greedyBytes : Restores greedyBytes b True := by
  rintro a s ⟨⟩
  exact ⟨b, rfl, by simp⟩

theorem restores_seq [hf : Invertible f] [Sized f n]
    (hg : ∀ a, f.parse b = .ok (a, b.drop n) → Restores (g a) (b.drop n) P) :
    Restores (f.seq g) b P := by
  intro p t h
  obtain ⟨s, ha, hx⟩ := (seq_parse f g).mp h
  obtain ⟨-, rfl⟩ := sized_drop ha
  obtain ⟨u, hu, hbuild⟩ := hf.written b p.1 _ ha
  obtain ⟨w, hbuild', hiff⟩ := hg p.1 ha p.2 t hx
  refine ⟨u ++ w, seq_build f g hbuild hbuild', ?_⟩
  rw [← hiff]
  nth_rewrite 1 [hu]
  rw [List.append_cancel_left_eq]

theorem restores_pair {g : Format τ β} [Invertible f] [Sized f n]
    (hg : Restores g (b.drop n) P) : Restores (f.pair g) b P := restores_seq fun _ _ => hg

theorem restores_variant (hf : Restores f b P) {decode : α → β} {encode : β → Option α}
    (h : ∀ a, encode (decode a) = some a) : Restores (f.variant decode encode) b P := by
  intro v s hp
  obtain ⟨a, ha, rfl⟩ := (variant_parse f).mp hp
  obtain ⟨w, hbuild, hiff⟩ := hf a s ha
  exact ⟨w, by rw [variant_build f (h a), hbuild], hiff⟩

theorem restores_present (hf : Restores f b P) : Restores (f.optional true) b P :=
  restores_variant hf fun _ => rfl

theorem restores_map (hf : Restores f b P) {decode : α → β} {encode : β → α}
    (h : ∀ a, encode (decode a) = a) : Restores (f.map decode encode) b P := by
  intro v s hp
  obtain ⟨a, ha, rfl⟩ := (map_parse f).mp hp
  obtain ⟨w, hbuild, hiff⟩ := hf a s ha
  exact ⟨w, by rw [map_build, h, hbuild], hiff⟩

end Rebuilds

section Demands
variable {f : Format τ α} {m n : ℕ}

instance (priority := low) demands_sized [hf : Sized f n] : Demands f n where
  accepts b := by
    constructor
    · rintro ⟨v, s, h⟩
      exact (sized_drop h).1
    · intro h
      obtain ⟨v, hv⟩ := hf.enough b h
      exact ⟨v, _, hv⟩

instance demands_greedyBytes : Demands (greedyBytes : Format τ (List τ)) 0 where
  accepts b := by simp [greedyBytes]

instance demands_greedyRange : Demands f.greedyRange 0 where
  accepts b := by simp [greedyRange]

instance demands_map [hf : Demands f n] (decode : α → β) (encode : β → α) :
    Demands (f.map decode encode) n where
  accepts b := by
    rw [← hf.accepts]
    constructor
    · rintro ⟨v, s, h⟩
      obtain ⟨a, ha, -⟩ := (map_parse f).mp h
      exact ⟨a, s, ha⟩
    · rintro ⟨a, s, h⟩
      exact ⟨decode a, s, (map_parse f).mpr ⟨a, h, rfl⟩⟩

instance demands_variant [hf : Demands f n] (decode : α → β) (encode : β → Option α) :
    Demands (f.variant decode encode) n where
  accepts b := by
    rw [← hf.accepts]
    constructor
    · rintro ⟨v, s, h⟩
      obtain ⟨a, ha, -⟩ := (variant_parse f).mp h
      exact ⟨a, s, ha⟩
    · rintro ⟨a, s, h⟩
      exact ⟨decode a, s, (variant_parse f).mpr ⟨a, h, rfl⟩⟩

instance demands_present [Demands f n] : Demands (f.optional true) n := demands_variant _ _

theorem accepts_seq {g : α → Format τ β} [hf : Sized f m] {b : List τ}
    (hg : ∀ a, f.parse b = .ok (a, b.drop m) → Demands (g a) n) :
    (∃ v s, (f.seq g).parse b = .ok (v, s)) ↔ m + n ≤ b.length := by
  constructor
  · rintro ⟨v, s, h⟩
    obtain ⟨r, ha, hx⟩ := (seq_parse f g).mp h
    obtain ⟨hm, rfl⟩ := sized_drop ha
    have hn := ((hg _ ha).accepts _).mp ⟨_, _, hx⟩
    rw [List.length_drop] at hn
    omega
  · intro h
    obtain ⟨a, ha⟩ := hf.enough b (by omega)
    obtain ⟨x, s, hx⟩ := ((hg a ha).accepts _).mpr
      (show n ≤ (b.drop m).length by rw [List.length_drop]; omega)
    exact ⟨(a, x), s, (seq_parse f g).mpr ⟨_, ha, hx⟩⟩

instance demands_pair {g : Format τ β} [Sized f m] [Demands g n] : Demands (f.pair g) (m + n) where
  accepts _ := accepts_seq fun _ _ => inferInstance

instance (priority := low) demands_pair_any {g : Format τ β} [hf : Demands f m]
    [hg : Demands g 0] : Demands (f.pair g) m where
  accepts b := by
    rw [← hf.accepts]
    constructor
    · rintro ⟨v, s, h⟩
      obtain ⟨r, ha, -⟩ := (seq_parse f _).mp h
      exact ⟨v.1, r, ha⟩
    · rintro ⟨a, r, ha⟩
      obtain ⟨x, s, hx⟩ := (hg.accepts r).mpr (Nat.zero_le _)
      exact ⟨(a, x), s, (seq_parse f _).mpr ⟨r, ha, hx⟩⟩

end Demands

end InVehicle.FormatLaws
