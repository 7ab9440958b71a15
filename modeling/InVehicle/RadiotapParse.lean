import InVehicle.RadiotapFields

/-!
# The walk over a radiotap header

`radiotap_parse` goes through the present bits of all words and reads a field for each.
What it makes of the fields is a list of dictionaries or, as the caller asks for, one
dictionary.
-/

set_option autoImplicit false

namespace InVehicle.RadiotapParse
open InVehicle.AlignedFields InVehicle.Dicts InVehicle.Words InVehicle.RadiotapFields

/-! ## Present bits -/

inductive Namespace where
  | radiotap
  | vendor
  deriving DecidableEq, Repr

/-- Inside one word: the namespace so far, `reset_count`, and what has been yielded. -/
structure WordBits where
  ns : Namespace
  resetCount : Bool
  yielded : List (Namespace × Option ℕ)
  deriving DecidableEq, Repr

def presentBit (present count : ℕ) (w : WordBits) (i : ℕ) : WordBits :=
  if present.testBit i then
    if i = 29 then ⟨.radiotap, true, w.yielded ++ [(.radiotap, none)]⟩
    else if i = 30 then ⟨.vendor, true, w.yielded ++ [(.vendor, none)]⟩
    else if i = 31 then w
    else { w with yielded := w.yielded ++ [(w.ns, some (count + i))] }
  else w

def wordBits (present count : ℕ) (ns : Namespace) : WordBits :=
  (List.range 32).foldl (presentBit present count) ⟨ns, false, []⟩

/-- `_present_bits` on the words of the bitmap. -/
def presentBits : List ℕ → ℕ → Namespace → List (Namespace × Option ℕ)
  | [], _, _ => []
  | present :: words, count, ns =>
    let w := wordBits present count ns
    w.yielded ++ presentBits words (if w.resetCount then 0 else count + 32) w.ns

/-- The bitmap is made of whole words: its end is found four bytes at a time. -/
def bitmapWords : Bytes → List ℕ
  | b₀ :: b₁ :: b₂ :: b₃ :: rest => byte.ofLe [b₀, b₁, b₂, b₃] :: bitmapWords rest
  | _ => []

/-- The loop over the extended bitmaps, on the bytes behind `offset`. -/
def skipPresent (present : ℕ) : Bytes → ℕ → Except ParseError ℕ
  | b₀ :: b₁ :: b₂ :: b₃ :: rest, offset =>
    if present.testBit 31 then skipPresent (byte.ofLe [b₀, b₁, b₂, b₃]) rest (offset + 4)
    else .ok offset
  | _, offset => if present.testBit 31 then .error .structError else .ok offset

/-! ## Vendor namespaces -/

structure Vendor where
  oui : Bytes
  subns : ℕ
  data : Bytes

def Vendor.fields (v : Vendor) : Dictionary :=
  [(.text "oui", .bytes v.oui), (.text "subns", .number v.subns), (.text "data", .bytes v.data),
    (.text "present", .number 0)]

/-- The slice of the data ends with the packet, the offset does not. -/
def parseVendor (packet : Bytes) (offset : ℕ) : Except ParseError (ℕ × Vendor) := do
  let offset := align offset 2
  let bs ← unpackFrom 6 packet offset
  let length := unsigned bs 4 2
  let offset := offset + 6
  return (offset + length, ⟨bs.take 3, unsigned bs 3 1, (packet.drop offset).take length⟩)

/-! ## What is made of the fields -/

structure Collector (δ : Type) where
  empty : δ
  addFields : δ → Dictionary → δ
  addVendorPresenceBit : δ → Option Bytes → ℕ → Except ParseError δ

/-- `tgt['present'] |= 1 << bit`. -/
def setPresence (tgt : Dictionary) (bit : ℕ) : Except ParseError Dictionary :=
  match entry tgt (.text "present") with
  | some (.number n) => .ok (setItem tgt (.text "present", .number (n ||| 1 <<< bit)))
  | some _ => .error .typeError
  | none => .error .keyError

/-- `valuelist=True`. -/
def valueList : Collector (List Dictionary) where
  empty := []
  addFields d fields := d ++ [fields]
  addVendorPresenceBit d _ bit :=
    match d.getLast? with
    | none => .error .indexError
    | some tgt => do
      let tgt ← setPresence tgt bit
      return d.dropLast ++ [tgt]

/-- `valuelist=False`. No value of the dictionary can hold a `present` of its own. -/
def dictionary : Collector Dictionary where
  empty := []
  addFields := update
  addVendorPresenceBit d oui _ :=
    match oui.bind fun oui => entry d (.bytes oui) with
    | none => .error .keyError
    | some _ => .error .typeError

variable {δ : Type} (C : Collector δ)

def Collector.add (d : δ) (fields : Dictionary) : δ :=
  if fields.isEmpty then d else C.addFields d fields

/-- The new offset is missing for a field that the parser does not know. -/
def parseRadiotapField (ns : Namespace) (fieldId : ℕ) (packet : Bytes) (offset : ℕ) :
    Except ParseError (Option ℕ × Dictionary) :=
  match ns with
  | .vendor => .ok (some offset, [])
  | .radiotap =>
    match dispatchTable[fieldId]? with
    | none => .ok (none, [])
    | some p => do
      let (offset, fields) ← p.parse packet offset
      return (some offset, fields)

/-- The loop of `radiotap_parse`. -/
def parseBits (packet : Bytes) (radiotapLen : ℕ) :
    List (Namespace × Option ℕ) → ℕ → δ → Option Bytes → Except ParseError δ
  | [], _, radiotap, _ => .ok radiotap
  | (.radiotap, none) :: bits, offset, radiotap, vendorNs =>
    parseBits packet radiotapLen bits offset radiotap vendorNs
  | (.vendor, none) :: bits, offset, radiotap, _ => do
    let (offset, vendor) ← parseVendor packet offset
    parseBits packet radiotapLen bits offset (C.add radiotap vendor.fields) (some vendor.oui)
  | (ns, some i) :: bits, offset, radiotap, vendorNs => do
    let radiotap ← if ns = .vendor then C.addVendorPresenceBit radiotap vendorNs i
      else .ok radiotap
    let (offset, fields) ← parseRadiotapField ns i packet offset
    let radiotap := C.add radiotap fields
    match offset with
    | none => .ok radiotap
    | some offset =>
      if offset = radiotapLen then .ok radiotap
      else parseBits packet radiotapLen bits offset radiotap vendorNs

def headerLength : ℕ := 8

def radiotapParse (packet : Bytes) : Except ParseError (ℕ × δ) :=
  if packet.length < headerLength then .ok (0, C.empty)
  else
    let version := unsigned packet 0 1
    let pad := unsigned packet 1 1
    let radiotapLen := unsigned packet 2 2
    let present := unsigned packet 4 4
    if version ≠ 0 ∨ pad ≠ 0 ∨ radiotapLen > packet.length then .ok (0, C.empty)
    else do
      let offset ← skipPresent present (packet.drop headerLength) headerLength
      let words := bitmapWords ((packet.take offset).drop (headerLength - 4))
      let radiotap ← parseBits C packet radiotapLen (presentBits words 0 .radiotap) offset
        C.empty none
      return (radiotapLen, radiotap)

/-! ## The bits of a word -/

def fieldBits (present count : ℕ) (ns : Namespace) : List (Namespace × Option ℕ) :=
  ((List.range 29).filter present.testBit).map fun i => (ns, some (count + i))

def switchBits (present : ℕ) : List (Namespace × Option ℕ) :=
  (if present.testBit 29 then [(.radiotap, none)] else []) ++
    if present.testBit 30 then [(.vendor, none)] else []

theorem foldl_presentBit (present count : ℕ) (is : List ℕ) (his : ∀ i ∈ is, i < 29)
    (w : WordBits) :
    is.foldl (presentBit present count) w =
      { w with
        yielded := w.yielded ++
          (is.filter present.testBit).map fun i => (w.ns, some (count + i)) } := by
  induction is generalizing w with
  | nil => simp
  | cons i is ih =>
    rw [List.forall_mem_cons] at his
    rw [List.foldl_cons, ih his.2]
    by_cases hbit : present.testBit i = true
    · have h₁ : i ≠ 29 := by omega
      have h₂ : i ≠ 30 := by omega
      have h₃ : i ≠ 31 := by omega
      simp [presentBit, hbit, h₁, h₂, h₃]
    · simp [presentBit, hbit]

theorem wordBits_eq (present count : ℕ) (ns : Namespace) :
    wordBits present count ns =
      ⟨if present.testBit 30 then .vendor else if present.testBit 29 then .radiotap else ns,
        present.testBit 29 || present.testBit 30,
        fieldBits present count ns ++ switchBits present⟩ := by
  have hrange : List.range 32 = List.range 29 ++ [29, 30, 31] := by decide
  have hfields := foldl_presentBit present count (List.range 29)
    (fun i hi => List.mem_range.mp hi) ⟨ns, false, []⟩
  rw [wordBits, hrange, List.foldl_append, hfields]
  simp only [List.foldl_cons, List.foldl_nil, presentBit, fieldBits, switchBits]
  by_cases h₁ : present.testBit 29 = true <;> by_cases h₂ : present.testBit 30 = true <;>
    simp [h₁, h₂]

/-! ## The steps of the loop -/

section Steps

variable (packet : Bytes) (radiotapLen : ℕ) (bits : List (Namespace × Option ℕ)) (offset : ℕ)
  (d : δ) (v : Option Bytes)

def resume (offset : ℕ) (d : δ) : Except ParseError δ :=
  if offset = radiotapLen then .ok d else parseBits C packet radiotapLen bits offset d v

theorem parseBits_switch :
    parseBits C packet radiotapLen ((.radiotap, none) :: bits) offset d v =
      parseBits C packet radiotapLen bits offset d v := rfl

theorem parseBits_vendor :
    parseBits C packet radiotapLen ((.vendor, none) :: bits) offset d v = (do
      let (offset, vendor) ← parseVendor packet offset
      parseBits C packet radiotapLen bits offset (C.add d vendor.fields) (some vendor.oui)) :=
  rfl

theorem parseBits_presence (i : ℕ) :
    parseBits C packet radiotapLen ((.vendor, some i) :: bits) offset d v = (do
      let d ← C.addVendorPresenceBit d v i
      resume C packet radiotapLen bits v offset d) := rfl

theorem parseBits_unknown {i : ℕ} (hi : dispatchTable[i]? = none) :
    parseBits C packet radiotapLen ((.radiotap, some i) :: bits) offset d v = .ok d := by
  simp [parseBits, parseRadiotapField, hi, bind, Except.bind, Collector.add]

theorem parseBits_field {i : ℕ} {p : FieldParser} (hi : dispatchTable[i]? = some p) :
    parseBits C packet radiotapLen ((.radiotap, some i) :: bits) offset d v = (do
      let (offset, fields) ← p.parse packet offset
      resume C packet radiotapLen bits v offset (C.add d fields)) := by
  simp only [parseBits, parseRadiotapField, hi, bind, Except.bind, reduceCtorEq, if_false]
  cases p.parse packet offset <;> rfl

end Steps

/-! ## Dictionaries -/

theorem entry_cons (e : Key × Value) (d : Dictionary) (k : Key) :
    entry (e :: d) k = if k = e.1 then some e.2 else entry d k := lookup_cons_ite k e d

theorem entry_setItem (d : Dictionary) (e : Key × Value) (k : Key) :
    entry (setItem d e) k = if k = e.1 then some e.2 else entry d k := lookup_put e.1 k e.2 d

def Textual (d : Dictionary) : Prop := ∀ e ∈ d, ∃ s, e.1 = .text s

theorem setItem_textual {d : Dictionary} (hd : Textual d) {e : Key × Value}
    (he : ∃ s, e.1 = .text s) : Textual (setItem d e) := by
  intro x hx
  rcases eq_or_mem_of_mem_put hx with rfl | hx
  · exact he
  · exact hd x hx

theorem update_textual {d fields : Dictionary} (hd : Textual d) (hfields : Textual fields) :
    Textual (update d fields) := by
  induction fields generalizing d with
  | nil => exact hd
  | cons e fields ih =>
    rw [Textual, List.forall_mem_cons] at hfields
    exact ih (setItem_textual hd hfields.1) hfields.2

theorem entry_bytes {d : Dictionary} (hd : Textual d) (oui : Bytes) :
    entry d (.bytes oui) = none := by
  rw [entry, List.lookup_eq_none_iff]
  intro e he
  obtain ⟨s, hs⟩ := hd e he
  rw [hs]
  rfl

def Plain (fields : Dictionary) : Prop := ∀ e ∈ fields, ∃ s, e.1 = .text s ∧ s ≠ "present"

theorem Plain.textual {fields : Dictionary} (h : Plain fields) : Textual fields :=
  fun e he => (h e he).imp fun _ hs => hs.1

theorem Plain.entry_present {fields : Dictionary} (h : Plain fields) :
    entry fields (.text "present") = none := by
  rw [entry, List.lookup_eq_none_iff]
  intro e he
  obtain ⟨s, hs, hne⟩ := h e he
  rw [hs]
  exact bne_iff_ne.mpr fun heq => hne (Key.text.inj heq).symm

theorem dispatchTable_names : ∀ p ∈ dispatchTable, p.names ≠ [] ∧ "present" ∉ p.names := by
  decide

theorem read_plain {p : FieldParser} (hp : p ∈ dispatchTable) {bs : Bytes}
    {fields : Dictionary} (h : p.read bs = .ok fields) : Plain fields := by
  intro e he
  have hkey : e.1 ∈ p.names.map Key.text := p.keys h ▸ List.mem_map_of_mem he
  obtain ⟨s, hs, heq⟩ := List.mem_map.mp hkey
  refine ⟨s, heq.symm, ?_⟩
  rintro rfl
  exact (dispatchTable_names p hp).2 hs

theorem read_ne_nil {p : FieldParser} (hp : p ∈ dispatchTable) {bs : Bytes}
    {fields : Dictionary} (h : p.read bs = .ok fields) : fields ≠ [] := by
  rintro rfl
  exact (dispatchTable_names p hp).1 (List.map_eq_nil_iff.mp (p.keys h).symm)

theorem Vendor.textual (v : Vendor) : Textual v.fields := by
  simp [Textual, Vendor.fields]

/-! ## The list against the dictionary -/

/-- The dictionaries of the list on top of each other. -/
def merge (es : List Dictionary) : Dictionary := es.foldl update []

def Loud (e : Dictionary) : Prop := ∃ n, n ≠ 0 ∧ entry e (.text "present") = some (.number n)

def Quiet (es : List Dictionary) : Prop := ∀ e ∈ es, ¬ Loud e

theorem not_quiet_iff (es : List Dictionary) : ¬ Quiet es ↔ ∃ e ∈ es, Loud e := by
  simp [Quiet]

theorem merge_add (es : List Dictionary) (fields : Dictionary) :
    merge (valueList.add es fields) = dictionary.add (merge es) fields := by
  rw [Collector.add, Collector.add]
  by_cases h : fields.isEmpty = true
  · rw [if_pos h, if_pos h]
  · rw [if_neg h, if_neg h]
    simp [merge, valueList, dictionary]

theorem add_loud {es : List Dictionary} (h : ∃ e ∈ es, Loud e) (fields : Dictionary) :
    ∃ e ∈ valueList.add es fields, Loud e := by
  obtain ⟨e, he, hloud⟩ := h
  rw [Collector.add]
  split
  · exact ⟨e, he, hloud⟩
  · exact ⟨e, List.mem_append_left _ he, hloud⟩

theorem add_quiet {es : List Dictionary} (h : Quiet es) {fields : Dictionary}
    (hfields : ¬ Loud fields) : Quiet (valueList.add es fields) := by
  rw [Collector.add]
  split
  · exact h
  · intro e he
    rcases List.mem_append.mp he with he | he
    · exact h e he
    · rwa [List.mem_singleton.mp he]

theorem dictionary_add_textual {d fields : Dictionary} (hd : Textual d)
    (hfields : Textual fields) : Textual (dictionary.add d fields) := by
  rw [Collector.add]
  split
  · exact hd
  · exact update_textual hd hfields

theorem Plain.quiet {fields : Dictionary} (h : Plain fields) : ¬ Loud fields := by
  rintro ⟨n, -, hn⟩
  rw [h.entry_present] at hn
  cases hn

theorem Vendor.quiet (v : Vendor) : ¬ Loud v.fields := by
  rintro ⟨n, hn, h⟩
  simp [Vendor.fields, entry_cons] at h
  exact hn h.symm

theorem presence_loud {es es' : List Dictionary} {v : Option Bytes} {i : ℕ}
    (h : valueList.addVendorPresenceBit es v i = .ok es') : ∃ e ∈ es', Loud e := by
  simp only [valueList] at h
  cases hlast : es.getLast? with
  | none => simp [hlast] at h
  | some tgt =>
    simp only [hlast, except_bind_eq_ok, setPresence] at h
    obtain ⟨tgt', htgt, hes⟩ := h
    cases hes
    refine ⟨tgt', by simp, ?_⟩
    split at htgt
    · cases htgt
      refine ⟨_, ?_, by rw [entry_setItem, if_pos rfl]⟩
      intro hzero
      have hbit := congrArg (Nat.testBit · i) hzero
      simp [Nat.testBit_or] at hbit
    · cases htgt
    · cases htgt

theorem presence_keyError {d : Dictionary} (hd : Textual d) (v : Option Bytes) (i : ℕ) :
    dictionary.addVendorPresenceBit d v i = .error .keyError := by
  cases v with
  | none => rfl
  | some oui => simp [dictionary, entry_bytes hd]

section Modes

variable {packet : Bytes} {radiotapLen : ℕ}

theorem loud_persists {bits : List (Namespace × Option ℕ)} {offset : ℕ}
    {es es' : List Dictionary} {v : Option Bytes} (hloud : ∃ e ∈ es, Loud e)
    (h : parseBits valueList packet radiotapLen bits offset es v = .ok es') :
    ∃ e ∈ es', Loud e := by
  induction bits generalizing offset es v with
  | nil =>
    cases h
    exact hloud
  | cons bit bits ih =>
    have hresume : ∀ {offset es v}, (∃ e ∈ es, Loud e) →
        resume valueList packet radiotapLen bits v offset es = .ok es' → ∃ e ∈ es', Loud e := by
      intro offset es v hloud h
      rw [resume] at h
      split at h
      · cases h
        exact hloud
      · exact ih hloud h
    match bit with
    | (.radiotap, none) => exact ih hloud h
    | (.vendor, none) =>
      rw [parseBits_vendor, except_bind_eq_ok] at h
      obtain ⟨⟨offset', vendor⟩, -, h⟩ := h
      exact ih (add_loud hloud _) h
    | (.vendor, some i) =>
      rw [parseBits_presence, except_bind_eq_ok] at h
      obtain ⟨es₁, hes₁, h⟩ := h
      exact hresume (presence_loud hes₁) h
    | (.radiotap, some i) =>
      cases hi : dispatchTable[i]? with
      | none =>
        rw [parseBits_unknown _ _ _ _ _ _ _ hi] at h
        cases h
        exact hloud
      | some p =>
        rw [parseBits_field _ _ _ _ _ _ _ hi, except_bind_eq_ok] at h
        obtain ⟨⟨offset', fields⟩, -, h⟩ := h
        exact hresume (add_loud hloud _) h

structure Agrees (list : Except ParseError (List Dictionary))
    (dict : Except ParseError Dictionary) : Prop where
  quiet : ∀ es, list = .ok es → Quiet es → dict = .ok (merge es)
  loud : ∀ es, list = .ok es → ¬ Quiet es → dict = .error .keyError
  failed : ∀ e, list = .error e → dict = .error e ∨ dict = .error .keyError

theorem Agrees.returned {es : List Dictionary} (h : Quiet es) :
    Agrees (.ok es) (.ok (merge es)) where
  quiet := by
    rintro _ ⟨rfl⟩ -
    rfl
  loud := by
    rintro _ ⟨rfl⟩ hloud
    exact absurd h hloud
  failed := nofun

theorem Agrees.raised (e : ParseError) : Agrees (.error e) (.error e) where
  quiet := nofun
  loud := nofun
  failed := by
    rintro _ ⟨rfl⟩
    exact .inl rfl

theorem Agrees.refused {list : Except ParseError (List Dictionary)}
    (h : ∀ es, list = .ok es → ¬ Quiet es) : Agrees list (.error .keyError) where
  quiet es hes hquiet := absurd hquiet (h es hes)
  loud _ _ _ := rfl
  failed _ _ := .inr rfl

theorem resume_loud {bits : List (Namespace × Option ℕ)} {offset : ℕ}
    {es es' : List Dictionary} {v : Option Bytes} (hloud : ∃ e ∈ es, Loud e)
    (h : resume valueList packet radiotapLen bits v offset es = .ok es') :
    ∃ e ∈ es', Loud e := by
  rw [resume] at h
  split at h
  · cases h
    exact hloud
  · exact loud_persists hloud h

theorem parseBits_agrees (bits : List (Namespace × Option ℕ)) (offset : ℕ)
    {es : List Dictionary} (v : Option Bytes) (htextual : Textual (merge es))
    (hquiet : Quiet es) :
    Agrees (parseBits valueList packet radiotapLen bits offset es v)
      (parseBits dictionary packet radiotapLen bits offset (merge es) v) := by
  induction bits generalizing offset es v with
  | nil => exact .returned hquiet
  | cons bit bits ih =>
    match bit with
    | (.radiotap, none) => exact ih offset v htextual hquiet
    | (.vendor, none) =>
      rw [parseBits_vendor, parseBits_vendor]
      cases parseVendor packet offset with
      | error e => exact .raised e
      | ok r =>
        simp only [bind, Except.bind, ← merge_add]
        apply ih
        · rw [merge_add]
          exact dictionary_add_textual htextual r.2.textual
        · exact add_quiet hquiet r.2.quiet
    | (.vendor, some i) =>
      rw [parseBits_presence, parseBits_presence, presence_keyError htextual]
      refine .refused fun es' h => ?_
      obtain ⟨es₁, hes₁, h⟩ := except_bind_eq_ok.mp h
      exact (not_quiet_iff es').mpr (resume_loud (presence_loud hes₁) h)
    | (.radiotap, some i) =>
      cases hi : dispatchTable[i]? with
      | none =>
        rw [parseBits_unknown _ _ _ _ _ _ _ hi, parseBits_unknown _ _ _ _ _ _ _ hi]
        exact .returned hquiet
      | some p =>
        rw [parseBits_field _ _ _ _ _ _ _ hi, parseBits_field _ _ _ _ _ _ _ hi]
        cases hparse : p.parse packet offset with
        | error e => exact .raised e
        | ok r =>
          obtain ⟨-, hread, -⟩ := (p.parse_eq_ok packet offset).mp hparse
          have hplain := read_plain (List.mem_of_getElem? hi) hread
          have hquiet' := add_quiet hquiet hplain.quiet
          simp only [bind, Except.bind, ← merge_add, resume]
          split
          · exact .returned hquiet'
          · apply ih _ _ _ hquiet'
            rw [merge_add]
            exact dictionary_add_textual htextual hplain.textual

end Modes

def Rejected (packet : Bytes) : Prop :=
  packet.length < headerLength ∨ unsigned packet 0 1 ≠ 0 ∨ unsigned packet 1 1 ≠ 0 ∨
    unsigned packet 2 2 > packet.length

theorem radiotapParse_rejected {packet : Bytes} (h : Rejected packet) :
    radiotapParse C packet = .ok (0, C.empty) := by
  rw [radiotapParse]
  by_cases hlength : packet.length < headerLength
  · rw [if_pos hlength]
  · rw [if_neg hlength]
    exact if_pos (h.resolve_left hlength)

theorem radiotapParse_accepted {packet : Bytes} (h : ¬ Rejected packet) :
    radiotapParse C packet = (do
      let offset ← skipPresent (unsigned packet 4 4) (packet.drop headerLength) headerLength
      let words := bitmapWords ((packet.take offset).drop (headerLength - 4))
      let radiotap ← parseBits C packet (unsigned packet 2 2) (presentBits words 0 .radiotap)
        offset C.empty none
      return (unsigned packet 2 2, radiotap)) := by
  rw [Rejected, not_or] at h
  rw [radiotapParse, if_neg h.1]
  exact if_neg h.2

theorem modes_agree (packet : Bytes) :
    (∀ n es, radiotapParse valueList packet = .ok (n, es) →
      (Quiet es → radiotapParse dictionary packet = .ok (n, merge es)) ∧
        (¬ Quiet es → radiotapParse dictionary packet = .error .keyError)) ∧
    ∀ e, radiotapParse valueList packet = .error e →
      radiotapParse dictionary packet = .error e ∨
        radiotapParse dictionary packet = .error .keyError := by
  have hquiet : Quiet [] := nofun
  by_cases h : Rejected packet
  · rw [radiotapParse_rejected _ h, radiotapParse_rejected _ h]
    refine ⟨?_, nofun⟩
    rintro n es ⟨⟩
    exact ⟨fun _ => rfl, fun hloud => absurd hquiet hloud⟩
  · rw [radiotapParse_accepted _ h, radiotapParse_accepted _ h]
    cases skipPresent (unsigned packet 4 4) (packet.drop headerLength) headerLength with
    | error e =>
      refine ⟨nofun, ?_⟩
      rintro _ ⟨rfl⟩
      exact .inl rfl
    | ok offset =>
      have hagrees : Agrees (parseBits valueList packet (unsigned packet 2 2) (presentBits
          (bitmapWords ((packet.take offset).drop (headerLength - 4))) 0 .radiotap) offset [] none)
          (parseBits dictionary packet (unsigned packet 2 2) (presentBits
            (bitmapWords ((packet.take offset).drop (headerLength - 4))) 0 .radiotap) offset
            (merge []) none) := parseBits_agrees _ offset none nofun hquiet
      simp only [bind, Except.bind, show dictionary.empty = merge [] from rfl,
        show valueList.empty = [] from rfl]
      generalize parseBits valueList packet _ _ _ _ _ = list at hagrees ⊢
      generalize parseBits dictionary packet _ _ _ _ _ = dict at hagrees ⊢
      constructor
      · intro n es hlist
        cases list with
        | error e => cases hlist
        | ok es' =>
          cases hlist
          constructor
          · intro hq
            rw [hagrees.quiet es rfl hq]
            rfl
          · intro hl
            rw [hagrees.loud es rfl hl]
      · intro e hlist
        cases list with
        | ok es => cases hlist
        | error e' =>
          cases hlist
          exact (hagrees.failed e rfl).imp (fun h => by rw [h]) fun h => by rw [h]

/-- The dictionary is the list merged, unless a vendor has presence bits. -/
theorem dictionary_iff (packet : Bytes) (n : ℕ) (d : Dictionary) :
    (radiotapParse dictionary packet = .ok (n, d) ↔
      ∃ es, radiotapParse valueList packet = .ok (n, es) ∧ Quiet es ∧ merge es = d) ∧
    ((∃ es, radiotapParse valueList packet = .ok (n, es) ∧ ¬ Quiet es) →
      radiotapParse dictionary packet = .error .keyError) := by
  obtain ⟨hok, herror⟩ := modes_agree packet
  refine ⟨⟨?_, ?_⟩, ?_⟩
  · intro h
    cases hlist : radiotapParse valueList packet with
    | error e =>
      rcases herror e hlist with h' | h' <;> rw [h'] at h <;> cases h
    | ok r =>
      obtain ⟨hquiet, hloud⟩ := hok r.1 r.2 hlist
      by_cases hq : Quiet r.2
      · rw [hquiet hq] at h
        cases h
        exact ⟨r.2, rfl, hq, rfl⟩
      · rw [hloud hq] at h
        cases h
  · rintro ⟨es, hlist, hq, rfl⟩
    exact (hok n es hlist).1 hq
  · rintro ⟨es, hlist, hq⟩
    exact (hok n es hlist).2 hq

end InVehicle.RadiotapParse
