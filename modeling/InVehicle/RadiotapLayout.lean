import InVehicle.BitMasks
import InVehicle.RadiotapParse

/-!
# Radiotap headers as they are laid out

A header is a list of parts. A part is one present word with what belongs to it: fields
in the order of their bits, or the data of a vendor and its bits. The next part is
announced in the word before. Reading what was laid out gives the fields back.
-/

set_option autoImplicit false

namespace InVehicle.RadiotapLayout
open InVehicle.AlignedFields InVehicle.Words InVehicle.RadiotapFields InVehicle.RadiotapParse

/-! ## Fields -/

structure Field where
  id : ℕ
  parser : FieldParser
  parser_eq : dispatchTable[id]? = some parser
  bytes : Bytes
  length_bytes : bytes.length = parser.size
  fields : Dictionary
  read : parser.read bytes = .ok fields

namespace Field

def content (f : Field) : Content UInt8 := ⟨f.parser.alignment, f.parser.aligned, f.bytes⟩

theorem id_lt (f : Field) : f.id < 22 := (List.getElem?_eq_some_iff.mp f.parser_eq).1

theorem bytes_ne_nil (f : Field) : f.content.bytes ≠ [] := by
  have hpos := f.parser.size_pos
  rw [← f.length_bytes] at hpos
  exact List.ne_nil_of_length_pos hpos

theorem fields_ne_nil (f : Field) : f.fields ≠ [] :=
  read_ne_nil (List.mem_of_getElem? f.parser_eq) f.read

theorem parse {f : Field} {packet : Bytes} {x : ℕ} {cs : List (Content UInt8)}
    (h : LaidAt 0 packet x (f.content :: cs)) :
    f.parser.parse packet x = .ok (f.content.finish x, f.fields) := by
  have hfinish := h.finish_le
  have htake := h.take_eq
  simp only [Content.finish, content, f.length_bytes] at hfinish htake
  rw [FieldParser.parse_eq_ok, htake]
  refine ⟨hfinish, f.read, ?_⟩
  rw [Content.finish, content, f.length_bytes]

end Field

def Stops (radiotapLen : ℕ) : ℕ → List Field → Prop
  | _, [] => False
  | x, f :: fs => f.content.finish x = radiotapLen ∨ Stops radiotapLen (f.content.finish x) fs

/-- The fields up to the first one at whose end the declared length lies. -/
def cut (radiotapLen : ℕ) : ℕ → List Field → List Field
  | _, [] => []
  | x, f :: fs =>
    if f.content.finish x = radiotapLen then [f] else f :: cut radiotapLen (f.content.finish x) fs

section Walk

variable {δ : Type} (C : Collector δ) {packet : Bytes} (radiotapLen : ℕ)
  (bits : List (Namespace × Option ℕ)) (v : Option Bytes)

def collect (d : δ) (fs : List Field) : δ := fs.foldl (fun d f => C.addFields d f.fields) d

theorem parseBits_fields {x : ℕ} {fs : List Field} {cs : List (Content UInt8)}
    (h : LaidAt 0 packet x (fs.map Field.content ++ cs)) (d : δ) :
    (Stops radiotapLen x fs →
      parseBits C packet radiotapLen (fs.map (fun f => (.radiotap, some f.id)) ++ bits) x d v =
        .ok (collect C d (cut radiotapLen x fs))) ∧
    (¬ Stops radiotapLen x fs →
      parseBits C packet radiotapLen (fs.map (fun f => (.radiotap, some f.id)) ++ bits) x d v =
        parseBits C packet radiotapLen bits (finish x (fs.map Field.content))
          (collect C d fs) v) := by
  induction fs generalizing x d with
  | nil => exact ⟨False.elim, fun _ => rfl⟩
  | cons f fs ih =>
    have hadd : C.add d f.fields = C.addFields d f.fields :=
      if_neg (by simpa using f.fields_ne_nil)
    have hfirst : parseBits C packet radiotapLen
        ((f :: fs).map (fun f => (.radiotap, some f.id)) ++ bits) x d v =
        resume C packet radiotapLen (fs.map (fun f => (.radiotap, some f.id)) ++ bits) v
          (f.content.finish x) (C.addFields d f.fields) := by
      rw [List.map_cons, List.cons_append, parseBits_field C _ _ _ _ _ _ f.parser_eq,
        Field.parse h, ← hadd]
      rfl
    obtain ⟨hstops, hgoes⟩ := ih h.tail (C.addFields d f.fields)
    rw [hfirst, resume, Stops, cut]
    by_cases hend : f.content.finish x = radiotapLen
    · rw [if_pos hend, if_pos hend]
      exact ⟨fun _ => rfl, fun hno => absurd (.inl hend) hno⟩
    · rw [if_neg hend, if_neg hend, or_iff_right hend]
      exact ⟨hstops, hgoes⟩

end Walk

/-! ## Bitmaps -/

structure Ids where
  ids : List ℕ
  increasing : ids.Pairwise (· < ·)
  lt : ∀ i ∈ ids, i < 29

def word (ids : Ids) (flags : List ℕ) : ℕ := BitMasks.mask id (ids.ids ++ flags)

theorem testBit_word (ids : Ids) (flags : List ℕ) (i : ℕ) :
    (word ids flags).testBit i = true ↔ i ∈ ids.ids ∨ i ∈ flags := by
  rw [word, BitMasks.testBit_mask, ← List.mem_append]
  exact ⟨fun ⟨_, ha, hai⟩ => hai ▸ ha, fun h => ⟨i, h, rfl⟩⟩

theorem testBit_word_flag (ids : Ids) (flags : List ℕ) {i : ℕ} (hi : 29 ≤ i) :
    (word ids flags).testBit i = decide (i ∈ flags) := by
  rw [Bool.eq_iff_iff, decide_eq_true_iff, testBit_word, or_iff_right]
  intro hmem
  have := ids.lt i hmem
  omega

section Bitmaps

variable (ids : Ids) {flags : List ℕ} (hflags : ∀ i ∈ flags, 29 ≤ i ∧ i < 32)
include hflags

theorem word_lt : word ids flags < 2 ^ 32 := by
  refine Nat.lt_pow_two_of_testBit _ fun i hi => ?_
  rw [Bool.eq_false_iff, ne_eq, testBit_word]
  rintro (h | h)
  · have := ids.lt i h
    omega
  · have := (hflags i h).2
    omega

theorem filter_word : (List.range 29).filter (word ids flags).testBit = ids.ids := by
  have hrange : ((List.range 29).filter (word ids flags).testBit).Pairwise (· < ·) :=
    List.pairwise_lt_range.filter _
  refine hrange.eq_of_mem_iff ids.increasing fun i => ?_
  rw [List.mem_filter, List.mem_range, testBit_word]
  constructor
  · rintro ⟨hi, h | h⟩
    · exact h
    · have := (hflags i h).1
      omega
  · intro h
    exact ⟨ids.lt i h, .inl h⟩

theorem fieldBits_word (ns : Namespace) :
    fieldBits (word ids flags) 0 ns = ids.ids.map fun i => (ns, some i) := by
  rw [fieldBits, filter_word ids hflags]
  simp only [Nat.zero_add]

end Bitmaps

/-! ## Vendors -/

structure VendorPart where
  vendor : Vendor
  length_oui : vendor.oui.length = 3
  subns_lt : vendor.subns < 256
  length_data : vendor.data.length < 65536
  present : Ids

namespace VendorPart

def head (v : VendorPart) : Bytes :=
  v.vendor.oui ++ (byte.le 1 v.vendor.subns ++ byte.le 2 v.vendor.data.length)

def content (v : VendorPart) : Content UInt8 :=
  ⟨2, isPowerOfTwo_two, v.head ++ v.vendor.data⟩

theorem length_head (v : VendorPart) : v.head.length = 6 := by
  rw [head, List.length_append, List.length_append, v.length_oui, byte.length_le,
    byte.length_le]

theorem length_content (v : VendorPart) : v.content.bytes.length = 6 + v.vendor.data.length := by
  rw [content, List.length_append, v.length_head]

theorem take_head (v : VendorPart) : v.head.take 3 = v.vendor.oui := by
  rw [head, ← v.length_oui, List.take_left]

theorem drop_head (v : VendorPart) :
    v.head.drop 3 = byte.le 1 v.vendor.subns ++ byte.le 2 v.vendor.data.length := by
  rw [head, ← v.length_oui, List.drop_left]

theorem unsigned_subns (v : VendorPart) : unsigned v.head 3 1 = v.vendor.subns := by
  rw [unsigned, v.drop_head, List.take_left' (byte.length_le 1 _)]
  exact byte.ofLe_le 1 _ v.subns_lt

theorem unsigned_length (v : VendorPart) : unsigned v.head 4 2 = v.vendor.data.length := by
  rw [unsigned, show 4 = 3 + 1 from rfl, ← List.drop_drop, v.drop_head,
    List.drop_left' (byte.length_le 1 _),
    List.take_of_length_le (Nat.le_of_eq (byte.length_le 2 _))]
  exact byte.ofLe_le 2 _ v.length_data

theorem parse {v : VendorPart} {packet : Bytes} {x : ℕ} {cs : List (Content UInt8)}
    (h : LaidAt 0 packet x (v.content :: cs)) :
    parseVendor packet x = .ok (v.content.finish x, v.vendor) := by
  obtain ⟨rest, hrest⟩ := h.drop_eq
  have hfinish := h.finish_le
  rw [Content.finish, length_content] at hfinish
  simp only [content, List.append_assoc] at hrest hfinish
  have hhead : unpackFrom 6 packet (align x 2) = .ok v.head := by
    rw [unpackFrom_eq_ok]
    refine ⟨by omega, ?_⟩
    rw [hrest, List.take_left' v.length_head]
  have hdata : (packet.drop (align x 2 + 6)).take v.vendor.data.length = v.vendor.data := by
    rw [← List.drop_drop, hrest, List.drop_left' v.length_head, List.take_left]
  simp only [parseVendor, hhead, bind, Except.bind, v.take_head, v.unsigned_subns,
    v.unsigned_length, hdata, pure, Except.pure]
  rw [Content.finish, length_content, Nat.add_assoc]
  rfl

end VendorPart

/-! ## Presence bits in the list -/

def recorded (v : Vendor) (present : ℕ) : Dictionary :=
  [(.text "oui", .bytes v.oui), (.text "subns", .number v.subns), (.text "data", .bytes v.data),
    (.text "present", .number present)]

def presence (bits : List ℕ) (present : ℕ) : ℕ := bits.foldl (fun n i => n ||| 1 <<< i) present

theorem setPresence_recorded (v : Vendor) (present i : ℕ) :
    setPresence (recorded v present) i = .ok (recorded v (present ||| 1 <<< i)) := rfl

theorem addVendorPresenceBit_recorded (es : List Dictionary) (v : Vendor) (oui : Option Bytes)
    (present i : ℕ) :
    valueList.addVendorPresenceBit (es ++ [recorded v present]) oui i =
      .ok (es ++ [recorded v (present ||| 1 <<< i)]) := by
  simp only [valueList, List.getLast?_concat, setPresence_recorded, List.dropLast_concat]
  rfl

section Presence

variable (packet : Bytes) (radiotapLen : ℕ) (bits : List (Namespace × Option ℕ)) {x : ℕ}
  (es : List Dictionary) (v : Vendor) (oui : Option Bytes) (present : ℕ)

/-- Presence bits take no bytes: all of them are recorded, or only the first one where the
header ends with the data of the vendor. -/
theorem parseBits_presences (is : List ℕ) :
    parseBits valueList packet radiotapLen (is.map (fun i => (.vendor, some i)) ++ bits) x
        (es ++ [recorded v present]) oui =
      if is ≠ [] ∧ x = radiotapLen then .ok (es ++ [recorded v (presence (is.take 1) present)])
      else parseBits valueList packet radiotapLen bits x
        (es ++ [recorded v (presence is present)]) oui := by
  induction is generalizing present with
  | nil => rfl
  | cons i is ih =>
    rw [List.map_cons, List.cons_append, parseBits_presence, addVendorPresenceBit_recorded]
    simp only [bind, Except.bind, resume]
    by_cases hend : x = radiotapLen
    · rw [if_pos hend, if_pos ⟨List.cons_ne_nil _ _, hend⟩]
      rfl
    · rw [if_neg hend, ih, if_neg fun h => hend h.2, if_neg fun h => hend h.2]
      rfl

end Presence

/-! ## Parts -/

structure FieldsPart where
  fields : List Field
  increasing : fields.Pairwise fun f g => f.id < g.id

def FieldsPart.present (p : FieldsPart) : Ids where
  ids := p.fields.map Field.id
  increasing := List.pairwise_map.mpr p.increasing
  lt := by
    intro i hi
    obtain ⟨f, -, rfl⟩ := List.mem_map.mp hi
    have := f.id_lt
    omega

inductive Part where
  | radiotap (p : FieldsPart)
  | vendor (v : VendorPart)

namespace Part

def ns : Part → Namespace
  | radiotap _ => .radiotap
  | vendor _ => .vendor

def present : Part → Ids
  | radiotap p => p.present
  | vendor v => v.present

def contents : Part → List (Content UInt8)
  | radiotap p => p.fields.map Field.content
  | vendor v => [v.content]

/-- The entries that the part adds to the list, with or without bytes behind it. -/
def entries (more : Bool) : Part → List Dictionary
  | radiotap p => p.fields.map Field.fields
  | vendor v => [recorded v.vendor (presence (if more then v.present.ids
      else v.present.ids.take 1) 0)]

end Part

/-- The bits in a word that announce what the next word is about. -/
def flags : List Part → List ℕ
  | [] => []
  | .radiotap _ :: _ => [29, 31]
  | .vendor _ :: _ => [30, 31]

theorem flags_range (parts : List Part) : ∀ i ∈ flags parts, 29 ≤ i ∧ i < 32 := by
  match parts with
  | [] => simp [flags]
  | .radiotap _ :: _ => simp [flags]
  | .vendor _ :: _ => simp [flags]

def words : List Part → List ℕ
  | [] => []
  | p :: parts => word p.present (flags parts) :: words parts

def contents (parts : List Part) : List (Content UInt8) := parts.flatMap Part.contents

def entries : List Part → List Dictionary
  | [] => []
  | p :: parts => p.entries (!(contents parts).isEmpty) ++ entries parts

def enter : List Part → List (Namespace × Option ℕ)
  | [] => []
  | p :: parts => (p.ns, none) :: (p.present.ids.map (fun i => (p.ns, some i)) ++ enter parts)

theorem presentBits_words (p : Part) (parts : List Part) :
    presentBits (words (p :: parts)) 0 p.ns =
      p.present.ids.map (fun i => (p.ns, some i)) ++ enter parts := by
  induction parts generalizing p with
  | nil =>
    have h₁ := testBit_word_flag p.present [] (i := 29) (by decide)
    have h₂ := testBit_word_flag p.present [] (i := 30) (by decide)
    rw [words, words, presentBits, wordBits_eq, flags, fieldBits_word p.present (by simp),
      switchBits, h₁, h₂]
    simp [presentBits, enter]
  | cons q parts ih =>
    have h₁ := testBit_word_flag p.present (flags (q :: parts)) (i := 29) (by decide)
    have h₂ := testBit_word_flag p.present (flags (q :: parts)) (i := 30) (by decide)
    rw [words, presentBits, wordBits_eq, fieldBits_word p.present (flags_range (q :: parts)),
      switchBits, h₁, h₂, enter, ← ih q]
    cases q <;> simp [flags, Part.ns]

/-! ## Reading the parts -/

theorem contents_bytes_ne_nil (parts : List Part) : ∀ c ∈ contents parts, c.bytes ≠ [] := by
  intro c hc
  obtain ⟨p, -, hc⟩ := List.mem_flatMap.mp hc
  cases p with
  | radiotap p =>
    obtain ⟨f, -, rfl⟩ := List.mem_map.mp hc
    exact f.bytes_ne_nil
  | vendor v =>
    rw [List.mem_singleton.mp hc]
    have h := v.length_content
    exact List.ne_nil_of_length_pos (by omega)

theorem entries_eq_nil {parts : List Part} (h : contents parts = []) : entries parts = [] := by
  induction parts with
  | nil => rfl
  | cons p parts ih =>
    rw [contents, List.flatMap_cons, List.append_eq_nil_iff] at h
    rw [entries, ih h.2, List.append_nil]
    cases p with
    | radiotap p => rw [Part.entries, List.map_eq_nil_iff.mp h.1, List.map_nil]
    | vendor v => cases h.1

theorem stops_whole {more : List (Content UInt8)} (hmore : ∀ c ∈ more, c.bytes ≠ [])
    {radiotapLen x : ℕ} {fs : List Field}
    (h : finish x (fs.map Field.content ++ more) = radiotapLen) :
    cut radiotapLen x fs = fs ∧ (Stops radiotapLen x fs → more = []) := by
  induction fs generalizing x with
  | nil => exact ⟨rfl, False.elim⟩
  | cons f fs ih =>
    have hrest : finish (f.content.finish x) (fs.map Field.content ++ more) = radiotapLen := h
    obtain ⟨hcut, hstops⟩ := ih hrest
    by_cases hend : f.content.finish x = radiotapLen
    · have hnil : fs.map Field.content ++ more = [] := by
        by_contra hne
        have hall : ∀ c ∈ fs.map Field.content ++ more, c.bytes ≠ [] := by
          intro c hc
          rcases List.mem_append.mp hc with hc | hc
          · obtain ⟨g, -, rfl⟩ := List.mem_map.mp hc
            exact g.bytes_ne_nil
          · exact hmore c hc
        have := lt_finish (x := f.content.finish x) hall hne
        omega
      obtain ⟨hfs, hmore⟩ := List.append_eq_nil_iff.mp hnil
      rw [cut, if_pos hend, List.map_eq_nil_iff.mp hfs]
      exact ⟨rfl, fun _ => hmore⟩
    · rw [cut, if_neg hend, hcut, Stops, or_iff_right hend]
      exact ⟨rfl, hstops⟩

theorem collect_valueList (es : List Dictionary) (fs : List Field) :
    collect valueList es fs = es ++ fs.map Field.fields := by
  induction fs generalizing es with
  | nil => simp [collect]
  | cons f fs ih =>
    rw [collect, List.foldl_cons, ← collect, ih]
    simp [valueList]

theorem parseBits_enter {packet : Bytes} {radiotapLen x : ℕ} {parts : List Part}
    (hlaid : LaidAt 0 packet x (contents parts))
    (hend : finish x (contents parts) = radiotapLen) (es : List Dictionary)
    (v : Option Bytes) :
    parseBits valueList packet radiotapLen (enter parts) x es v =
      .ok (es ++ entries parts) := by
  induction parts generalizing x es v with
  | nil =>
    rw [entries, List.append_nil]
    rfl
  | cons p parts ih =>
    have hcontents : contents (p :: parts) = p.contents ++ contents parts := List.flatMap_cons
    have hrest := contents_bytes_ne_nil parts
    rw [hcontents] at hlaid hend
    rw [enter, entries]
    cases p with
    | radiotap p =>
      obtain ⟨hcut, hnil⟩ := stops_whole hrest hend
      obtain ⟨hstop, hgo⟩ := parseBits_fields valueList radiotapLen (enter parts) v hlaid es
      rw [Part.ns, parseBits_switch, Part.present, FieldsPart.present, List.map_map]
      by_cases hstops : Stops radiotapLen x p.fields
      · rw [entries_eq_nil (hnil hstops), List.append_nil]
        refine (hstop hstops).trans ?_
        rw [hcut, collect_valueList]
        rfl
      · have hafter : finish (finish x (p.fields.map Field.content)) (contents parts) =
            radiotapLen := (finish_append x _ _).symm.trans hend
        have hih := ih hlaid.append hafter (es ++ p.fields.map Field.fields) v
        refine (hgo hstops).trans ?_
        rw [collect_valueList, ← List.append_assoc]
        exact hih
    | vendor w =>
      have hpresences := parseBits_presences packet radiotapLen (enter parts)
        (x := w.content.finish x) es w.vendor (some w.vendor.oui) 0 w.present.ids
      have hparse : parseVendor packet x = .ok (w.content.finish x, w.vendor) := w.parse hlaid
      have hafter : finish (w.content.finish x) (contents parts) = radiotapLen := hend
      have hih := ih hlaid.tail hafter
      rw [Part.ns, parseBits_vendor, hparse]
      refine Eq.trans hpresences ?_
      by_cases hnil : contents parts = []
      · have hend' : w.content.finish x = radiotapLen := by rw [← hafter, hnil]; rfl
        rw [hnil, entries_eq_nil hnil, List.append_nil]
        by_cases his : w.present.ids = []
        · rw [if_neg fun h => h.1 his, his, hih, entries_eq_nil hnil, List.append_nil]
          simp [Part.entries, his]
        · rw [if_pos ⟨his, hend'⟩]
          rfl
      · have hlt := lt_finish (x := w.content.finish x) hrest hnil
        rw [if_neg fun h => by omega, hih, List.append_assoc]
        simp [Part.entries, hnil]

/-! ## Headers -/

def wordBytes (ws : List ℕ) : Bytes := ws.flatMap (byte.le 4)

theorem length_wordBytes (ws : List ℕ) : (wordBytes ws).length = 4 * ws.length := by
  rw [wordBytes, List.length_flatMap]
  simp [byte.length_le, Nat.mul_comm]

theorem bitmapWords_wordBytes {ws : List ℕ} (h : ∀ w ∈ ws, w < 2 ^ 32) :
    bitmapWords (wordBytes ws) = ws := by
  induction ws with
  | nil => rfl
  | cons w ws ih =>
    rw [List.forall_mem_cons] at h
    have hw : byte.ofLe (byte.le 4 w) = w := byte.ofLe_le 4 w h.1
    rw [wordBytes, List.flatMap_cons, ← wordBytes]
    show byte.ofLe (byte.le 4 w) :: bitmapWords (wordBytes ws) = w :: ws
    rw [hw, ih h.2]

theorem words_lt (parts : List Part) : ∀ w ∈ words parts, w < 2 ^ 32 := by
  induction parts with
  | nil => nofun
  | cons p parts ih =>
    rw [words, List.forall_mem_cons]
    exact ⟨word_lt p.present (flags_range parts), ih⟩

theorem length_words (parts : List Part) : (words parts).length = parts.length := by
  induction parts with
  | nil => rfl
  | cons p parts ih => rw [words, List.length_cons, ih, List.length_cons]

theorem skipPresent_last {present : ℕ} (h : present.testBit 31 = false) (bytes : Bytes)
    (x : ℕ) : skipPresent present bytes x = .ok x := by
  rw [skipPresent.eq_def]
  split <;> simp [h]

theorem skipPresent_more {present : ℕ} (h : present.testBit 31 = true) {w : ℕ}
    (hw : w < 2 ^ 32) (bytes : Bytes) (x : ℕ) :
    skipPresent present (byte.le 4 w ++ bytes) x = skipPresent w bytes (x + 4) := by
  have hword : byte.ofLe (byte.le 4 w) = w := byte.ofLe_le 4 w hw
  exact (if_pos h).trans (congrArg (skipPresent · bytes (x + 4)) hword)

theorem skipPresent_words (p : Part) (parts : List Part) (more : Bytes) (x : ℕ) :
    skipPresent (word p.present (flags parts)) (wordBytes (words parts) ++ more) x =
      .ok (x + 4 * parts.length) := by
  induction parts generalizing p x with
  | nil =>
    have hlast := testBit_word_flag p.present (flags []) (i := 31) (by decide)
    exact skipPresent_last hlast _ x
  | cons q parts ih =>
    have hmore := testBit_word_flag p.present (flags (q :: parts)) (i := 31) (by decide)
    have hmem : 31 ∈ flags (q :: parts) := by cases q <;> simp [flags]
    rw [decide_eq_true hmem] at hmore
    rw [words, wordBytes, List.flatMap_cons, ← wordBytes, List.append_assoc,
      skipPresent_more hmore (word_lt q.present (flags_range parts)), ih q, List.length_cons]
    congr 1
    omega

structure Header where
  first : FieldsPart
  rest : List Part
  length_lt : finish (8 + 4 * rest.length) (contents (.radiotap first :: rest)) < 65536

namespace Header

variable (h : Header)

def parts : List Part := .radiotap h.first :: h.rest

def start : ℕ := 8 + 4 * h.rest.length

def length : ℕ := finish h.start (contents h.parts)

def bitmap : Bytes := wordBytes (words h.parts)

def encode : Bytes :=
  0 :: 0 :: (byte.le 2 h.length ++ (h.bitmap ++ lay 0 h.start (contents h.parts)))

def entries : List Dictionary := RadiotapLayout.entries h.parts

theorem length_bitmap : 4 + h.bitmap.length = h.start := by
  rw [bitmap, length_wordBytes, length_words, parts, List.length_cons, start]
  omega

theorem length_encode : h.encode.length = h.length := by
  have hlay := length_lay (0 : UInt8) h.start (contents h.parts)
  have hbitmap := h.length_bitmap
  rw [encode, List.length_cons, List.length_cons, List.length_append, byte.length_le,
    List.length_append, length, ← hlay]
  omega

theorem accepted (frame : Bytes) : ¬ Rejected (h.encode ++ frame) ∧
    unsigned (h.encode ++ frame) 2 2 = h.length := by
  have hlength : (h.encode ++ frame).length = h.length + frame.length := by
    rw [List.length_append, length_encode]
  have hstart : h.start ≤ h.length := le_finish h.start (contents h.parts)
  have hlen : unsigned (h.encode ++ frame) 2 2 = h.length := by
    rw [unsigned, encode]
    exact byte.ofLe_le 2 h.length h.length_lt
  refine ⟨?_, hlen⟩
  rintro (hshort | hversion | hpad | hlong)
  · rw [hlength, headerLength] at hshort
    rw [start] at hstart
    omega
  · exact hversion rfl
  · exact hpad rfl
  · omega

theorem unsigned_present (frame : Bytes) :
    unsigned (h.encode ++ frame) 4 4 = word h.first.present (flags h.rest) :=
  byte.ofLe_le 4 _ (word_lt h.first.present (flags_range h.rest))

theorem drop_encode (frame : Bytes) :
    (h.encode ++ frame).drop headerLength =
      wordBytes (words h.rest) ++ (lay 0 h.start (contents h.parts) ++ frame) := by
  have hbitmap : h.bitmap = byte.le 4 (word h.first.present (flags h.rest)) ++
      wordBytes (words h.rest) := List.flatMap_cons
  have hlength : (0 :: 0 :: (byte.le 2 h.length ++
      byte.le 4 (word h.first.present (flags h.rest)))).length = headerLength := by
    simp [headerLength]
  have hencode : h.encode ++ frame = (0 :: 0 :: (byte.le 2 h.length ++
      byte.le 4 (word h.first.present (flags h.rest)))) ++
        (wordBytes (words h.rest) ++ (lay 0 h.start (contents h.parts) ++ frame)) := by
    simp only [encode, hbitmap, List.cons_append, List.append_assoc]
  rw [hencode, List.drop_left' hlength]

theorem bitmap_encode (frame : Bytes) :
    ((h.encode ++ frame).take h.start).drop (headerLength - 4) = h.bitmap := by
  have hlength := h.length_bitmap
  have hfront : (0 :: 0 :: byte.le 2 h.length).length = headerLength - 4 := by
    simp [headerLength]
  have hencode : h.encode ++ frame = ((0 :: 0 :: byte.le 2 h.length) ++ h.bitmap) ++
      (lay 0 h.start (contents h.parts) ++ frame) := by
    simp only [encode, List.cons_append, List.append_assoc]
  rw [hencode, List.take_left' (by rw [List.length_append, hfront, ← hlength]; rfl),
    List.drop_left' hfront]

theorem laidAt (frame : Bytes) : LaidAt 0 (h.encode ++ frame) h.start (contents h.parts) := by
  refine ⟨0 :: 0 :: (byte.le 2 h.length ++ h.bitmap), frame, ?_, ?_⟩
  · have hlength := h.length_bitmap
    rw [List.length_cons, List.length_cons, List.length_append, byte.length_le]
    omega
  · simp only [encode, List.cons_append, List.append_assoc]

theorem radiotapParse_list (frame : Bytes) :
    radiotapParse valueList (h.encode ++ frame) = .ok (h.length, h.entries) := by
  obtain ⟨haccepted, hlength⟩ := h.accepted frame
  have hskip := skipPresent_words (.radiotap h.first) h.rest
    (lay 0 h.start (contents h.parts) ++ frame) headerLength
  have hstart : headerLength + 4 * h.rest.length = h.start := rfl
  have hbits : presentBits (words h.parts) 0 .radiotap =
      h.first.present.ids.map (fun i => (.radiotap, some i)) ++ enter h.rest :=
    presentBits_words (.radiotap h.first) h.rest
  have hread : parseBits valueList (h.encode ++ frame) h.length (enter h.parts) h.start [] none =
      .ok ([] ++ h.entries) := parseBits_enter (h.laidAt frame) rfl [] none
  rw [hstart] at hskip
  rw [radiotapParse_accepted _ haccepted, hlength, h.unsigned_present, h.drop_encode]
  simp only [Part.present] at hskip
  have hfirst : parseBits valueList (h.encode ++ frame) h.length
      (h.first.present.ids.map (fun i => (.radiotap, some i)) ++ enter h.rest) h.start [] none =
      .ok h.entries := hread
  have hempty : valueList.empty = [] := rfl
  rw [hskip]
  simp only [bind, Except.bind, h.bitmap_encode, Header.bitmap, hempty,
    bitmapWords_wordBytes (words_lt h.parts), hbits, hfirst]
  rfl

end Header

def timeField : Field where
  id := 0
  parser := parseMactime
  parser_eq := rfl
  bytes := [1, 2, 0, 0, 0, 0, 0, 0]
  length_bytes := rfl
  fields := [(.text "TSFT", .number 513)]
  read := rfl

def antennaField : Field where
  id := 11
  parser := parseAntenna
  parser_eq := rfl
  bytes := [3]
  length_bytes := rfl
  fields := [(.text "antenna", .number 3)]
  read := rfl

def threeWords : Header where
  first := ⟨[timeField], by simp⟩
  rest := [.vendor ⟨⟨[0, 0x12, 0x34], 5, [7]⟩, rfl, by decide, by decide, ⟨[2, 4], by decide,
    by decide⟩⟩, .radiotap ⟨[antennaField], by simp⟩]
  length_lt := by decide +kernel

example : radiotapParse valueList (threeWords.encode ++ [0x80, 0]) = .ok (32,
    [[(.text "TSFT", .number 513)],
      [(.text "oui", .bytes [0, 0x12, 0x34]), (.text "subns", .number 5),
        (.text "data", .bytes [7]), (.text "present", .number 20)],
      [(.text "antenna", .number 3)]]) := by
  decide +kernel

/-! ## Any declared length -/

/-- Fields of one word behind a header that declares some length. -/
def declared (radiotapLen : UInt16) (p : FieldsPart) : Bytes :=
  0 :: 0 :: (byte.le 2 radiotapLen.toNat ++ (byte.le 4 (word p.present []) ++
    lay 0 headerLength (p.fields.map Field.content)))

theorem cut_eq_self {radiotapLen x : ℕ} {fs : List Field} (h : ¬ Stops radiotapLen x fs) :
    cut radiotapLen x fs = fs := by
  induction fs generalizing x with
  | nil => rfl
  | cons f fs ih =>
    rw [Stops, not_or] at h
    rw [cut, if_neg h.1, ih h.2]

end InVehicle.RadiotapLayout
