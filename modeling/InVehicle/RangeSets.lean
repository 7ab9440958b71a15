import Mathlib.Data.Set.Card
import Mathlib.Order.CompletePartialOrder
import InVehicle.PyNumbers
import InVehicle.StableSorts

/-!
# Range sets

A text such as `1-5,7` names ranges of numbers. The set keeps one range for each token,
sorted by the end; its classes differ in how they read a number.
-/

set_option autoImplicit false

namespace InVehicle.RangeSets
open TextCodecs StableSorts PyNumbers

section Parsing
variable (parseNumber : Text → Except NumberError ℤ)

/-- The range of a token. The assignment to `start, stop` asks for a third number to
see that there is none. -/
def parseToken (t : Text) : Except NumberError Range :=
  if t.contains '-' then do
    let numbers ← ((t.splitOn '-').take 3).mapM parseNumber
    match numbers with
    | [start, stop] => pure ⟨start, stop + 1⟩
    | _ => .error .valueError
  else do
    let start ← parseNumber t
    pure ⟨start, start + 1⟩

def tokens (nmapRanges : Text) : List Text :=
  if nmapRanges = [] then [] else nmapRanges.splitOn ','

def parseNmapRanges (nmapRanges : Text) : Except NumberError (List Range) := do
  let ranges ← (tokens nmapRanges).mapM (parseToken parseNumber)
  pure (sortByKey Range.stop ranges)

/-- The ranges that the tokens name, in their order. -/
def tokenRanges (nmapRanges : Text) : List Range :=
  (tokens nmapRanges).filterMap fun t => (parseToken parseNumber t).toOption

structure BaseNumberRangeSet where
  inputString : Text
  ranges : List Range
  parsed : parseNmapRanges parseNumber inputString = .ok ranges

end Parsing

/-- The class itself reads no number, each subclass has its own way. -/
def parseNumberBase (_ : Text) : Except NumberError ℤ := .error .notImplementedError

abbrev HexNumberRangeSet (py : Interpreter) : Type := BaseNumberRangeSet (int py 16)

abbrev OctNumberRangeSet (py : Interpreter) : Type := BaseNumberRangeSet (int py 8)

abbrev BinNumberRangeSet (py : Interpreter) : Type := BaseNumberRangeSet (int py 2)

abbrev DecNumberRangeSet (py : Interpreter) : Type := BaseNumberRangeSet (int py 10)

abbrev AutoNumberRangeSet (py : Interpreter) : Type := BaseNumberRangeSet (int py 0)

namespace BaseNumberRangeSet

variable {parseNumber : Text → Except NumberError ℤ}

def ofString (inputString : Text) : Except NumberError (BaseNumberRangeSet parseNumber) :=
  match h : parseNmapRanges parseNumber inputString with
  | .ok ranges => .ok ⟨inputString, ranges, h⟩
  | .error e => .error e

variable (s : BaseNumberRangeSet parseNumber)

/-- The numbers in the order of `__iter__`. -/
def iter : List ℤ := s.ranges.flatMap Range.numbers

def len (py : Interpreter) : Except NumberError ℕ := do
  let lengths ← s.ranges.mapM (Range.len py)
  pure lengths.sum

/-- `__eq__`, which compares the ranges place by place. -/
def eq {parseNumber' : Text → Except NumberError ℤ} (value : BaseNumberRangeSet parseNumber') :
    Bool :=
  value.ranges.isEqv s.ranges Range.eq

end BaseNumberRangeSet

theorem parseNmapRanges_ok_iff {parseNumber : Text → Except NumberError ℤ} {s : Text}
    {ranges : List Range} :
    parseNmapRanges parseNumber s = .ok ranges ↔
      ∃ xs, (tokens s).mapM (parseToken parseNumber) = .ok xs ∧
        ranges = sortByKey Range.stop xs := by
  rw [parseNmapRanges]
  cases (tokens s).mapM (parseToken parseNumber) with
  | error e => exact iff_of_false (by rintro ⟨⟩) (by rintro ⟨xs, ⟨⟩, -⟩)
  | ok xs =>
    constructor
    · rintro ⟨⟩
      exact ⟨xs, rfl, rfl⟩
    · rintro ⟨_, ⟨⟩, rfl⟩
      rfl

/-! ## Every list of ranges has a text -/

def tokenText (r : ℕ × ℕ) : Text := Nat.toDigits 10 r.1 ++ '-' :: Nat.toDigits 10 r.2

def rangesText (pairs : List (ℕ × ℕ)) : Text := [','].intercalate (pairs.map tokenText)

theorem not_mem_toDigits {c : Char} (n : ℕ) (h : c.isDigit = false) : c ∉ Nat.toDigits 10 n :=
  fun hc => ne_of_isDigit (Nat.isDigit_of_mem_toDigits (by decide) (by decide) hc) h rfl

section Texts
variable (py : Interpreter)

theorem parseToken_tokenText {r : ℕ × ℕ} (hstart : Readable py r.1) (hlast : Readable py r.2) :
    parseToken (int py 10) (tokenText r) = .ok ⟨r.1, r.2 + 1⟩ := by
  have hdash : (tokenText r).contains '-' = true := by simp [tokenText]
  have hsplit : (tokenText r).splitOn '-' = [Nat.toDigits 10 r.1, Nat.toDigits 10 r.2] := by
    rw [tokenText, List.splitOn_append_cons_self_of_not_mem (not_mem_toDigits r.1 (by decide)),
      List.splitOn_eq_singleton (not_mem_toDigits r.2 (by decide))]
  rw [parseToken, if_pos hdash, hsplit, List.take_of_length_le (by simp), List.mapM_cons,
    List.mapM_cons, int_toDigits py hstart, int_toDigits py hlast]
  rfl

theorem tokens_rangesText (pairs : List (ℕ × ℕ)) :
    tokens (rangesText pairs) = pairs.map tokenText := by
  cases pairs with
  | nil => rfl
  | cons r pairs =>
    have hcomma : ∀ t ∈ (r :: pairs).map tokenText, ',' ∉ t := by
      intro t ht
      obtain ⟨q, -, rfl⟩ := List.mem_map.mp ht
      simp [tokenText, not_mem_toDigits]
    have hsplit := List.splitOn_intercalate ',' hcomma (by simp)
    have hne : rangesText (r :: pairs) ≠ [] := by
      intro hnil
      rw [← rangesText, hnil, List.splitOn_nil] at hsplit
      simp [tokenText] at hsplit
    rw [tokens, if_neg hne, rangesText, hsplit]

theorem mapM_parseToken {pairs : List (ℕ × ℕ)}
    (h : ∀ r ∈ pairs, Readable py r.1 ∧ Readable py r.2) :
    (pairs.map tokenText).mapM (parseToken (int py 10)) =
      .ok (pairs.map fun r => ⟨r.1, r.2 + 1⟩) := by
  induction pairs with
  | nil => rfl
  | cons r pairs ih =>
    rw [List.forall_mem_cons] at h
    rw [List.map_cons, List.mapM_cons, parseToken_tokenText py h.1.1 h.1.2, ih h.2]
    rfl

theorem parseNmapRanges_rangesText {pairs : List (ℕ × ℕ)}
    (h : ∀ r ∈ pairs, Readable py r.1 ∧ Readable py r.2) :
    parseNmapRanges (int py 10) (rangesText pairs) =
      .ok (sortByKey Range.stop (pairs.map fun r => ⟨r.1, r.2 + 1⟩)) := by
  refine parseNmapRanges_ok_iff.mpr ⟨_, ?_, rfl⟩
  rw [tokens_rangesText, mapM_parseToken py h]

end Texts

/-! ## What the set keeps of its tokens -/

theorem mapM_ok {α β ε : Type} {f : α → Except ε β} {l : List α} {xs : List β}
    (h : l.mapM f = .ok xs) : l.filterMap (fun a => (f a).toOption) = xs := by
  induction l generalizing xs with
  | nil =>
    cases h
    rfl
  | cons a l ih =>
    rw [List.mapM_cons] at h
    cases ha : f a with
    | error e =>
      rw [ha] at h
      cases h
    | ok b =>
      rw [ha] at h
      cases hl : l.mapM f with
      | error e =>
        rw [hl] at h
        cases h
      | ok ys =>
        rw [hl] at h
        cases h
        rw [List.filterMap_cons_some (b := b) (by rw [ha]; rfl), ih hl]

theorem exists_mapM_iff {α β ε : Type} (f : α → Except ε β) (l : List α) :
    (∃ xs, l.mapM f = .ok xs) ↔ ∀ a ∈ l, ∃ b, f a = .ok b := by
  induction l with
  | nil => exact iff_of_true ⟨[], rfl⟩ (by simp)
  | cons a l ih =>
    rw [List.forall_mem_cons, ← ih, List.mapM_cons]
    cases ha : f a with
    | error e => exact iff_of_false (by rintro ⟨xs, ⟨⟩⟩) (by rintro ⟨⟨b, ⟨⟩⟩, -⟩)
    | ok b =>
      cases hl : l.mapM f with
      | error e => exact iff_of_false (by rintro ⟨xs, ⟨⟩⟩) (by rintro ⟨-, xs, ⟨⟩⟩)
      | ok xs => exact iff_of_true ⟨b :: xs, rfl⟩ ⟨⟨b, rfl⟩, xs, rfl⟩

section Sets
variable {parseNumber : Text → Except NumberError ℤ}

theorem ranges_eq (s : BaseNumberRangeSet parseNumber) :
    s.ranges = sortByKey Range.stop (tokenRanges parseNumber s.inputString) := by
  obtain ⟨xs, hxs, hranges⟩ := parseNmapRanges_ok_iff.mp s.parsed
  rw [tokenRanges, mapM_ok hxs, hranges]

theorem ofString_iff (nmapRanges : Text) :
    (∃ s : BaseNumberRangeSet parseNumber, BaseNumberRangeSet.ofString nmapRanges = .ok s) ↔
      ∀ t ∈ tokens nmapRanges, ∃ r, parseToken parseNumber t = .ok r := by
  rw [← exists_mapM_iff]
  constructor
  · rintro ⟨s, hs⟩
    rw [BaseNumberRangeSet.ofString] at hs
    split at hs
    · next ranges hparsed =>
      obtain ⟨xs, hxs, -⟩ := parseNmapRanges_ok_iff.mp hparsed
      exact ⟨xs, hxs⟩
    · cases hs
  · rintro ⟨xs, hxs⟩
    have hparsed := parseNmapRanges_ok_iff.mpr ⟨xs, hxs, rfl⟩
    rw [BaseNumberRangeSet.ofString]
    split
    · exact ⟨_, rfl⟩
    · next e herror => cases hparsed.symm.trans herror

theorem ranges_perm (s : BaseNumberRangeSet parseNumber) :
    s.ranges.Perm (tokenRanges parseNumber s.inputString) := by
  rw [ranges_eq]
  exact sortByKey_perm Range.stop _

theorem tokenRanges_perm {a b : Text} (h : (tokens a).Perm (tokens b)) :
    (tokenRanges parseNumber a).Perm (tokenRanges parseNumber b) :=
  h.filterMap _

/-! ## Equality -/

/-- Where the ranges begin that end at `stop`, in the order of their tokens. -/
def startsAt (parseNumber : Text → Except NumberError ℤ) (nmapRanges : Text) (stop : ℤ) :
    List (Option ℤ) :=
  (ofKey Range.stop stop (tokenRanges parseNumber nmapRanges)).map Range.first

theorem isEqv_iff_forall₂ (l m : List Range) :
    l.isEqv m Range.eq = true ↔ List.Forall₂ (fun r s => r.eq s = true) l m := by
  induction l generalizing m with
  | nil => cases m <;> simp
  | cons r l ih => cases m <;> simp [List.isEqv_cons_cons, ih]

theorem forall₂_eq_iff_first {stop : ℤ} {l m : List Range} (hl : ∀ r ∈ l, r.stop = stop)
    (hm : ∀ r ∈ m, r.stop = stop) :
    List.Forall₂ (fun r s => r.eq s = true) l m ↔ l.map Range.first = m.map Range.first := by
  induction l generalizing m with
  | nil => cases m <;> simp
  | cons r l ih =>
    cases m with
    | nil => simp
    | cons s m =>
      rw [List.forall_mem_cons] at hl hm
      rw [List.forall₂_cons, Range.eq_iff_first r s (hl.1.trans hm.1.symm), ih hl.2 hm.2]
      simp

/-- Ranges with different ends are in the same places in every order of the tokens; those
with one end stay as their tokens come. -/
theorem eq_iff_startsAt (a b : BaseNumberRangeSet parseNumber)
    (h : (tokens a.inputString).Perm (tokens b.inputString)) :
    a.eq b = true ↔ ∀ stop, startsAt parseNumber a.inputString stop =
      startsAt parseNumber b.inputString stop := by
  have hranges : (tokenRanges parseNumber b.inputString).Perm
      (tokenRanges parseNumber a.inputString) := (tokenRanges_perm h).symm
  rw [BaseNumberRangeSet.eq, isEqv_iff_forall₂, ranges_eq a, ranges_eq b,
    forall₂_sortByKey_iff Range.stop hranges]
  refine forall_congr' fun stop => ?_
  rw [forall₂_eq_iff_first (fun r hr => key_of_mem_ofKey Range.stop hr)
    (fun r hr => key_of_mem_ofKey Range.stop hr)]
  exact eq_comm

end Sets

/-! ### Two orders of two ranges with one end -/

def asciiPython : Interpreter where
  isSpace _ := false
  decimal _ := none
  maxStrDigits := 4300
  maxsize := 2 ^ 63 - 1

theorem parseNmapRanges_sorted {parseNumber : Text → Except NumberError ℤ} {s : Text}
    {ranges : List Range} (h : (tokens s).mapM (parseToken parseNumber) = .ok ranges)
    (hsorted : ranges.Pairwise fun r t => r.stop ≤ t.stop) :
    parseNmapRanges parseNumber s = .ok ranges := by
  refine parseNmapRanges_ok_iff.mpr ⟨ranges, h, ?_⟩
  rw [sortByKey_of_sorted Range.stop hsorted]

def wideFirst : DecNumberRangeSet asciiPython where
  inputString := "1-5,3-5".toList
  ranges := [⟨1, 6⟩, ⟨3, 6⟩]
  parsed := parseNmapRanges_sorted (by decide +kernel) (by decide)

def wideLast : DecNumberRangeSet asciiPython where
  inputString := "3-5,1-5".toList
  ranges := [⟨3, 6⟩, ⟨1, 6⟩]
  parsed := parseNmapRanges_sorted (by decide +kernel) (by decide)

def narrowFirst : DecNumberRangeSet asciiPython where
  inputString := "1-2,3-5".toList
  ranges := [⟨1, 3⟩, ⟨3, 6⟩]
  parsed := parseNmapRanges_sorted (by decide +kernel) (by decide)

def narrowLast : DecNumberRangeSet asciiPython where
  inputString := "3-5,1-2".toList
  ranges := sortByKey Range.stop [⟨3, 6⟩, ⟨1, 3⟩]
  parsed := parseNmapRanges_ok_iff.mpr ⟨[⟨3, 6⟩, ⟨1, 3⟩], by decide +kernel, rfl⟩

/-- One order of two tokens with different ends and the other. -/
theorem eq_iff_startsAt_wide :
    narrowFirst.eq narrowLast = true ∧ ¬ wideFirst.eq wideLast = true := by
  have hfirst : tokenRanges (int asciiPython 10) narrowFirst.inputString = [⟨1, 3⟩, ⟨3, 6⟩] := by
    decide +kernel
  have hlast : tokenRanges (int asciiPython 10) narrowLast.inputString = [⟨3, 6⟩, ⟨1, 3⟩] := by
    decide +kernel
  constructor
  · refine (eq_iff_startsAt narrowFirst narrowLast (by decide +kernel)).mpr fun stop => ?_
    rw [startsAt, startsAt, hfirst, hlast]
    by_cases h : stop = 3
    · subst h
      decide
    · simp [ofKey, List.filter_cons, Ne.symm h]
  · intro h
    exact absurd ((eq_iff_startsAt wideFirst wideLast (by decide +kernel)).mp h 6)
      (by decide +kernel)

theorem tokens_perm_not_eq :
    (tokens wideFirst.inputString).Perm (tokens wideLast.inputString) ∧
      wideFirst.eq wideLast = false := by
  decide +kernel

/-! ## Numbers -/

section Numbers
variable {parseNumber : Text → Except NumberError ℤ}

def union (parseNumber : Text → Except NumberError ℤ) (nmapRanges : Text) : Set ℤ :=
  {n | ∃ r ∈ tokenRanges parseNumber nmapRanges, n ∈ r.interval}

variable (s : BaseNumberRangeSet parseNumber) (py : Interpreter)

theorem iter_perm :
    s.iter.Perm ((tokenRanges parseNumber s.inputString).flatMap Range.numbers) :=
  (ranges_perm s).flatMap_right Range.numbers

theorem mem_iter (n : ℤ) : n ∈ s.iter ↔ n ∈ union parseNumber s.inputString := by
  rw [(iter_perm s).mem_iff, List.mem_flatMap]
  simp only [Range.mem_numbers_iff_interval]
  rfl

theorem count_flatMap_numbers (ranges : List Range) (n : ℤ) :
    (ranges.flatMap Range.numbers).count n = ranges.countP fun r => n ∈ r.numbers := by
  induction ranges with
  | nil => rfl
  | cons r ranges ih =>
    rw [List.flatMap_cons, List.count_append, List.countP_cons, ih,
      r.numbers_nodup.count]
    simp only [decide_eq_true_eq, Nat.add_comm]

theorem count_iter (n : ℤ) :
    s.iter.count n = (tokenRanges parseNumber s.inputString).countP fun r => n ∈ r.numbers := by
  rw [(iter_perm s).count_eq, count_flatMap_numbers]

theorem disjoint_numbers_iff (r t : Range) :
    List.Disjoint r.numbers t.numbers ↔ Disjoint r.interval t.interval := by
  rw [Set.disjoint_left]
  simp only [List.Disjoint, Range.mem_numbers_iff_interval]

theorem iter_nodup_iff :
    s.iter.Nodup ↔ (tokenRanges parseNumber s.inputString).Pairwise fun r t =>
      Disjoint r.interval t.interval := by
  rw [(iter_perm s).nodup_iff, List.nodup_flatMap]
  simp only [Range.numbers_nodup, implies_true, true_and, ← disjoint_numbers_iff]

theorem mapM_len (ranges : List Range) :
    ranges.mapM (Range.len py) =
      if ∀ r ∈ ranges, r.size ≤ py.maxsize then .ok (ranges.map Range.size)
      else .error .overflowError := by
  induction ranges with
  | nil => rfl
  | cons r ranges ih =>
    rw [List.mapM_cons, ih, Range.len]
    by_cases hr : py.maxsize < r.size
    · have hall : ¬∀ t ∈ r :: ranges, t.size ≤ py.maxsize := fun h =>
        Nat.not_le.mpr hr (h r List.mem_cons_self)
      rw [if_pos hr, if_neg hall]
      rfl
    · rw [if_neg hr]
      by_cases hrest : ∀ t ∈ ranges, t.size ≤ py.maxsize
      · have hall : ∀ t ∈ r :: ranges, t.size ≤ py.maxsize :=
          List.forall_mem_cons.mpr ⟨Nat.not_lt.mp hr, hrest⟩
        rw [if_pos hrest, if_pos hall]
        rfl
      · have hall : ¬∀ t ∈ r :: ranges, t.size ≤ py.maxsize := fun h =>
          hrest (List.forall_mem_cons.mp h).2
        rw [if_neg hrest, if_neg hall]
        rfl

theorem len_eq :
    s.len py =
      if ∀ r ∈ tokenRanges parseNumber s.inputString, r.size ≤ py.maxsize then .ok s.iter.length
      else .error .overflowError := by
  have hmem : (∀ r ∈ s.ranges, r.size ≤ py.maxsize) ↔
      ∀ r ∈ tokenRanges parseNumber s.inputString, r.size ≤ py.maxsize := by
    simp only [(ranges_perm s).mem_iff]
  rw [BaseNumberRangeSet.len, mapM_len]
  by_cases h : ∀ r ∈ s.ranges, r.size ≤ py.maxsize
  · rw [if_pos h, if_pos (hmem.mp h), BaseNumberRangeSet.iter, List.length_flatMap]
    simp only [Range.length_numbers]
    rfl
  · rw [if_neg h, if_neg (mt hmem.mpr h)]
    rfl

theorem iter_perm_of_tokens_perm (t : BaseNumberRangeSet parseNumber)
    (h : (tokens s.inputString).Perm (tokens t.inputString)) : s.iter.Perm t.iter :=
  (iter_perm s).trans (((tokenRanges_perm h).flatMap_right _).trans (iter_perm t).symm)

theorem flatMap_numbers_eq {l m : List Range}
    (h : List.Forall₂ (fun r t => r.eq t = true) l m) :
    l.flatMap Range.numbers = m.flatMap Range.numbers := by
  induction h with
  | nil => rfl
  | cons hrange _ ih =>
    rw [List.flatMap_cons, List.flatMap_cons, ih, (Range.eq_iff_numbers _ _).mp hrange]

theorem iter_eq_of_eq (t : BaseNumberRangeSet parseNumber) (h : s.eq t = true) :
    s.iter = t.iter :=
  (flatMap_numbers_eq ((isEqv_iff_forall₂ _ _).mp h)).symm

theorem length_iter_of_nodup (h : s.iter.Nodup) :
    s.iter.length = (union parseNumber s.inputString).ncard := by
  have hunion : union parseNumber s.inputString = s.iter.toFinset := by
    ext n
    rw [← mem_iter]
    simp
  rw [hunion, Set.ncard_coe_finset, List.toFinset_card_of_nodup h]

structure SetOfNumbers : Prop where
  once : s.iter.Nodup
  members : ∀ n, n ∈ s.iter ↔ n ∈ union parseNumber s.inputString
  size : s.len py = .ok (union parseNumber s.inputString).ncard

theorem setOfNumbers_iff :
    SetOfNumbers s py ↔
      ((tokenRanges parseNumber s.inputString).Pairwise fun r t =>
        Disjoint r.interval t.interval) ∧
      ∀ r ∈ tokenRanges parseNumber s.inputString, r.size ≤ py.maxsize := by
  rw [← iter_nodup_iff]
  constructor
  · rintro ⟨honce, -, hsize⟩
    refine ⟨honce, ?_⟩
    by_contra h
    rw [len_eq, if_neg h] at hsize
    cases hsize
  · rintro ⟨honce, hmaxsize⟩
    refine ⟨honce, mem_iter s, ?_⟩
    rw [len_eq, if_pos hmaxsize, length_iter_of_nodup s honce]

end Numbers

def overlapping : DecNumberRangeSet asciiPython where
  inputString := "1-3,2-4".toList
  ranges := [⟨1, 4⟩, ⟨2, 5⟩]
  parsed := parseNmapRanges_sorted (by decide +kernel) (by decide)

/-- Two and three come twice. -/
theorem overlapping_not_setOfNumbers : ¬SetOfNumbers overlapping asciiPython := by
  rintro ⟨honce, -, -⟩
  have htwice : ¬overlapping.iter.Nodup := by decide +kernel
  exact htwice honce

end InVehicle.RangeSets
