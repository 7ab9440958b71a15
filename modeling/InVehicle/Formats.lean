import InVehicle.Words

/-!
# Declarative binary formats

A format reads a value from the front of a token stream and writes it back. The
combinators are those of a declarative parsing library. Laws are carried through
them: the tokens taken decide what is read (`Local`), a value is written as the
tokens it was read from (`Invertible`), and how many they are (`Sized`).
-/

set_option autoImplicit false

namespace InVehicle.Formats
open InVehicle.Words

/-- An error of the library, or an exception out of an expression or adapter
that its user supplied. -/
inductive Failure where
  | construct
  | keyError
  | attributeError
  | valueError
  deriving DecidableEq, Repr

structure Format (τ α : Type) where
  parse : List τ → Except Failure (α × List τ)
  build : α → Except Failure (List τ)

variable {τ δ α β : Type}

namespace Format

/-- `Computed`. -/
def const (a : α) : Format τ α := ⟨fun b => .ok (a, b), fun _ => .ok []⟩

def fail (e : Failure) : Format τ α := ⟨fun _ => .error e, fun _ => .error e⟩

/-- `Bytes(n)`: a negative count is refused, as is a value of another length. -/
def bytes (n : ℤ) : Format τ (List τ) where
  parse b :=
    if 0 ≤ n ∧ n ≤ b.length then .ok (b.take n.toNat, b.drop n.toNat) else .error .construct
  build v := if v.length = n then .ok v else .error .construct

def greedyBytes : Format τ (List τ) := ⟨fun b => .ok (b, []), fun v => .ok v⟩

/-- `Adapter`: decoding after reading, encoding before writing. -/
def adapt (decode : α → Except Failure β) (encode : β → Except Failure α) (f : Format τ α) :
    Format τ β where
  parse b := do
    let (a, s) ← f.parse b
    let v ← decode a
    return (v, s)
  build v := do
    let a ← encode v
    f.build a

def map (decode : α → β) (encode : β → α) (f : Format τ α) : Format τ β :=
  f.adapt (fun a => .ok (decode a)) (fun v => .ok (encode v))

def variant (decode : α → β) (encode : β → Option α) (f : Format τ α) : Format τ β :=
  f.adapt (fun a => .ok (decode a)) fun v =>
    match encode v with
    | some a => .ok a
    | none => .error .construct

def seq (f : Format τ α) (g : α → Format τ β) : Format τ (α × β) where
  parse b := do
    let (a, s) ← f.parse b
    let (x, t) ← (g a).parse s
    return ((a, x), t)
  build v := do
    let u ← f.build v.1
    let w ← (g v.1).build v.2
    return u ++ w

def pair (f : Format τ α) (g : Format τ β) : Format τ (α × β) := f.seq fun _ => g

/-- `If`. -/
def optional (c : Bool) (f : Format τ α) : Format τ (Option α) :=
  if c then f.variant some id else const none

def nil : Format τ (List α) where
  parse b := .ok ([], b)
  build v := if v.isEmpty then .ok [] else .error .construct

def times (f : Format τ α) : ℕ → Format τ (List α)
  | 0 => nil
  | n+1 => (f.seq fun _ => times f n).variant (fun p => p.1 :: p.2)
      fun v => v.head?.map fun a => (a, v.tail)

/-- `Array(n, f)`: a negative count is refused. -/
def array (n : ℤ) (f : Format τ α) : Format τ (List α) :=
  if 0 ≤ n then f.times n.toNat else fail .construct

/-- The items at the front of `b`, each with the tokens it took: up to the first
that fails, whatever the reason, and from there on the tokens are left. -/
def pieces (f : Format τ α) : ℕ → List τ → List (List τ × α) × List τ
  | 0, b => ([], b)
  | n+1, b =>
    match f.parse b with
    | .ok (a, s) =>
      ((b.take (b.length - s.length), a) :: (f.pieces n s).1, (f.pieces n s).2)
    | .error _ => ([], b)

def buildAll (f : Format τ α) : List α → Except Failure (List τ)
  | [] => .ok []
  | a :: as => do
    let u ← f.build a
    let w ← f.buildAll as
    return u ++ w

def range (f : Format τ α) (b : List τ) : List (List τ × α) × List τ := f.pieces b.length b

/-- `GreedyRange`, of items that take at least one token each. -/
def greedyRange (f : Format τ α) : Format τ (List α) where
  parse b := .ok ((f.range b).1.map Prod.snd, (f.range b).2)
  build := f.buildAll

/-- One token, such as `Flag`. -/
def token : Format τ τ where
  parse
    | [] => .error .construct
    | x :: s => .ok (x, s)
  build x := .ok [x]

def be (D : Digit δ) (k : ℕ) : Format δ ℕ :=
  (bytes k).adapt (fun ds => .ok (D.ofBe ds)) fun n =>
    if n < D.base ^ k then .ok (D.be k n) else .error .construct

def le (D : Digit δ) (k : ℕ) : Format δ ℕ :=
  (bytes k).adapt (fun ds => .ok (D.ofLe ds)) fun n =>
    if n < D.base ^ k then .ok (D.le k n) else .error .construct

/-- `parse` of a whole input: what is left over is not looked at. -/
def parseAll (f : Format τ α) (b : List τ) : Except Failure α := (f.parse b).map Prod.fst

def unpack (swapped : Bool) (b : UInt8) : List Bool :=
  if swapped then byteBits b else (byteBits b).reverse

def pack (swapped : Bool) : ℕ → List Bool → List UInt8
  | 0, _ => []
  | n+1, bits =>
    ofByteBits (if swapped then bits.take 8 else (bits.take 8).reverse) ::
      pack swapped n (bits.drop 8)

/-- `BitStruct` of `n` bytes, under `BitsSwapped` if `swapped`. -/
def bitStruct (swapped : Bool) (n : ℕ) (f : Format Bool α) : Format UInt8 α :=
  (bytes n).adapt (fun bs => f.parseAll (bs.flatMap (unpack swapped))) fun a => do
    let bits ← f.build a
    if bits.length = 8 * n then .ok (pack swapped n bits) else .error .construct

end Format

open Format

theorem bind_eq_ok {x : Except Failure α} {f : α → Except Failure β} {v : β} :
    x >>= f = .ok v ↔ ∃ a, x = .ok a ∧ f a = .ok v := by
  cases x with
  | error e => simp [bind, Except.bind]
  | ok a => simp [bind, Except.bind]

section Equations
variable (f : Format τ α) (g : α → Format τ β)

theorem adapt_parse {decode : α → Except Failure β} {encode : β → Except Failure α} {b s : List τ}
    {v : β} : (f.adapt decode encode).parse b = .ok (v, s) ↔
      ∃ a, f.parse b = .ok (a, s) ∧ decode a = .ok v := by
  simp only [adapt, bind_eq_ok, Prod.exists]
  constructor
  · rintro ⟨a, s', h, v', hd, ⟨⟩⟩
    exact ⟨a, h, hd⟩
  · rintro ⟨a, h, hd⟩
    exact ⟨a, s, h, v, hd, rfl⟩

theorem adapt_build {decode : α → Except Failure β} {encode : β → Except Failure α} {v : β} {a : α}
    (h : encode v = .ok a) : (f.adapt decode encode).build v = f.build a := by
  simp only [adapt, h]
  rfl

theorem map_parse {decode : α → β} {encode : β → α} {b s : List τ} {v : β} :
    (f.map decode encode).parse b = .ok (v, s) ↔ ∃ a, f.parse b = .ok (a, s) ∧ decode a = v := by
  simp only [Format.map, adapt_parse, Except.ok.injEq]

theorem map_build {decode : α → β} {encode : β → α} (v : β) :
    (f.map decode encode).build v = f.build (encode v) := rfl

theorem variant_parse {decode : α → β} {encode : β → Option α} {b s : List τ} {v : β} :
    (f.variant decode encode).parse b = .ok (v, s) ↔
      ∃ a, f.parse b = .ok (a, s) ∧ decode a = v := by
  simp only [variant, adapt_parse, Except.ok.injEq]

theorem variant_build {decode : α → β} {encode : β → Option α} {v : β} {a : α}
    (h : encode v = some a) : (f.variant decode encode).build v = f.build a := by
  simp only [variant, adapt, h]
  rfl

@[simp] theorem optional_true : f.optional true = f.variant some id := rfl

theorem seq_parse {p : α × β} {b t : List τ} : (f.seq g).parse b = .ok (p, t) ↔
    ∃ s, f.parse b = .ok (p.1, s) ∧ (g p.1).parse s = .ok (p.2, t) := by
  simp only [seq, bind_eq_ok, Prod.exists]
  constructor
  · rintro ⟨a, s, hf, x, t', hg, ⟨⟩⟩
    exact ⟨s, hf, hg⟩
  · rintro ⟨s, hf, hg⟩
    exact ⟨p.1, s, hf, p.2, t, hg, rfl⟩

theorem seq_build {a : α} {x : β} {u w : List τ} (hf : f.build a = .ok u)
    (hg : (g a).build x = .ok w) : (f.seq g).build (a, x) = .ok (u ++ w) := by
  simp only [seq, hf, hg]
  rfl

theorem parseAll_ok {b : List τ} {v : α} :
    f.parseAll b = .ok v ↔ ∃ s, f.parse b = .ok (v, s) := by
  rw [parseAll]
  cases f.parse b with
  | error e => simp [Except.map]
  | ok p => simp [Except.map, Prod.ext_iff]

theorem bytes_parse {n : ℤ} {b v s : List τ} :
    (bytes n).parse b = .ok (v, s) ↔ b = v ++ s ∧ (v.length : ℤ) = n := by
  simp only [bytes]
  split_ifs with h
  · simp only [Except.ok.injEq, Prod.mk.injEq]
    constructor
    · rintro ⟨rfl, rfl⟩
      refine ⟨(List.take_append_drop _ b).symm, ?_⟩
      rw [List.length_take]
      omega
    · rintro ⟨rfl, rfl⟩
      simp
  · simp only [false_iff]
    rintro ⟨rfl, rfl⟩
    simp at h

theorem range_error {b : List τ} {e : Failure} (h : f.parse b = .error e) :
    f.range b = ([], b) := by
  cases b with
  | nil => rfl
  | cons x b => simp only [range, List.length_cons, pieces, h]

def Consumes : Prop := ∀ b a s, f.parse b = .ok (a, s) → s.length < b.length

theorem pieces_nil (hf : Consumes f) (n : ℕ) : f.pieces n [] = ([], []) := by
  cases n with
  | zero => rfl
  | succ n =>
    cases hp : f.parse [] with
    | error e => simp only [pieces, hp]
    | ok p => exact absurd (hf [] p.1 p.2 hp) (Nat.not_lt_zero _)

theorem pieces_fuel (hf : Consumes f) (n m : ℕ) (b : List τ) (hn : b.length ≤ n)
    (hm : b.length ≤ m) : f.pieces n b = f.pieces m b := by
  induction n generalizing m b with
  | zero =>
    obtain rfl := List.length_eq_zero_iff.mp (Nat.le_zero.mp hn)
    rw [pieces_nil f hf, pieces_nil f hf]
  | succ n ih =>
    cases m with
    | zero =>
      obtain rfl := List.length_eq_zero_iff.mp (Nat.le_zero.mp hm)
      rw [pieces_nil f hf, pieces_nil f hf]
    | succ m =>
      cases hp : f.parse b with
      | error e => simp only [pieces, hp]
      | ok p =>
        have hlt := hf b p.1 p.2 hp
        simp only [pieces, hp]
        rw [ih m p.2 (by omega) (by omega)]

theorem range_ok (hf : Consumes f) {b s : List τ} {a : α} (h : f.parse b = .ok (a, s)) :
    f.range b = ((b.take (b.length - s.length), a) :: (f.range s).1, (f.range s).2) := by
  have hlt := hf b a s h
  obtain ⟨n, hn⟩ := Nat.exists_eq_succ_of_ne_zero (show b.length ≠ 0 by omega)
  rw [range, hn, pieces, h]
  simp only
  rw [pieces_fuel f hf n s.length s (by omega) le_rfl, ← hn]
  rfl

end Equations

end InVehicle.Formats
