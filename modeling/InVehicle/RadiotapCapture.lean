import InVehicle.RadiotapLayout
import InVehicle.WlanReceive

/-!
# Captured frames behind their radiotap header

`parse_radiotap` of the SDK takes the dictionary of the vendored parser, adds the channel
for its frequency and cuts the header off.
-/

set_option autoImplicit false

namespace InVehicle.RadiotapCapture
open InVehicle.Formats InVehicle.AlignedFields InVehicle.Dicts InVehicle.Words
open InVehicle.RadiotapFields
open InVehicle.RadiotapParse InVehicle.RadiotapLayout
open InVehicle.WlanReceive (convertFreqToChannel)

inductive CaptureError where
  | parse (e : ParseError)
  | failure (f : Failure)
  deriving DecidableEq

def parsed {α : Type} : Except ParseError α → Except CaptureError α
  | .ok a => .ok a
  | .error e => .error (.parse e)

def converted : Except Failure ℕ → Except CaptureError ℕ
  | .ok channel => .ok channel
  | .error f => .error (.failure f)

def parseRadiotap (rawPacket : Bytes) : Except CaptureError (Dictionary × Bytes) := do
  let (headerLength, parsedHeader) ← parsed (radiotapParse dictionary rawPacket)
  match entry parsedHeader (.text "chan_freq"), entry parsedHeader (.text "chan_flags") with
  | some (.number chanFreq), some _ => do
    let channel ← converted (convertFreqToChannel chanFreq)
    return (setItem parsedHeader (.text "channel", .number channel), rawPacket.drop headerLength)
  | some _, some _ => .error (.parse .typeError)
  | _, _ => return (parsedHeader, rawPacket.drop headerLength)

def number (d : Dictionary) (name : String) : Option ℕ :=
  match entry d (.text name) with
  | some (.number n) => some n
  | _ => none

/-- The vendored parser as the receiver sees it. It writes no channel itself, and where it
raises there is nothing to see. -/
def vendored (packet : Bytes) : ℕ × WlanReceive.Radiotap :=
  match radiotapParse dictionary packet with
  | .ok (n, d) => (n, ⟨number d "chan_freq", number d "chan_flags", none⟩)
  | .error _ => (0, ⟨none, none, none⟩)

/-! ## The last entry of a name -/

theorem entry_merge {es : List Dictionary} (h : ∀ e ∈ es, (e.map Prod.fst).Nodup) (k : Key) :
    entry (merge es) k = (es.filterMap (entry · k)).getLast? := by
  induction es using List.reverseRecOn with
  | nil => rfl
  | append_singleton es e ih =>
    have hes := ih fun e' he' => h e' (List.mem_append_left _ he')
    have he := h e (List.mem_append_right _ List.mem_cons_self)
    have hmerge : merge (es ++ [e]) = update (merge es) e := by simp [merge]
    rw [hmerge, entry, lookup_update he, ← entry, ← entry, hes, List.filterMap_append]
    cases hk : entry e k with
    | none => simp [hk]
    | some v => simp [hk]

/-! ## The channel of a header -/

theorem keys_nodup (f : Field) : (f.fields.map Prod.fst).Nodup := by
  have hnames : ∀ p ∈ dispatchTable, p.names.Nodup := by decide
  rw [f.parser.keys f.read]
  exact (hnames _ (List.mem_of_getElem? f.parser_eq)).map fun _ _ h => Key.text.inj h

theorem entries_nodup (parts : List Part) :
    ∀ e ∈ RadiotapLayout.entries parts, (e.map Prod.fst).Nodup := by
  induction parts with
  | nil => nofun
  | cons p parts ih =>
    intro e he
    rcases List.mem_append.mp he with he | he
    · cases p with
      | radiotap p =>
        obtain ⟨f, -, rfl⟩ := List.mem_map.mp he
        exact keys_nodup f
      | vendor v =>
        rw [List.mem_singleton.mp he]
        show [Key.text "oui", .text "subns", .text "data", .text "present"].Nodup
        decide
    · exact ih e he

def channelOf (f : Field) : Option (ℕ × ℕ) :=
  if f.id = 3 then some (unsigned f.bytes 0 2, unsigned f.bytes 2 2) else none

theorem entry_channel (f : Field) :
    entry f.fields (.text "chan_freq") = (channelOf f).map (.number ·.1) ∧
      entry f.fields (.text "chan_flags") = (channelOf f).map (.number ·.2) := by
  rw [channelOf]
  by_cases hid : f.id = 3
  · have htable := f.parser_eq
    rw [hid] at htable
    have hparser : parseChannel = f.parser := Option.some.inj htable
    have hread := f.read
    rw [← hparser] at hread
    rw [if_pos hid, ← Except.ok.inj hread]
    exact ⟨rfl, rfl⟩
  · have hnames : ∀ i < 22, i ≠ 3 → ∀ names ∈ (dispatchTable.map FieldParser.names)[i]?,
        "chan_freq" ∉ names ∧ "chan_flags" ∉ names := by decide
    have hmem : f.parser.names ∈ (dispatchTable.map FieldParser.names)[f.id]? := by
      rw [List.getElem?_map, f.parser_eq]
      rfl
    have hkeys := f.parser.keys f.read
    have hnone : ∀ s ∉ f.parser.names, entry f.fields (.text s) = none := by
      intro s hs
      rw [entry, List.lookup_eq_none_iff]
      intro e he
      refine bne_iff_ne.mpr fun heq => hs ?_
      have hkey : e.1 ∈ f.parser.names.map Key.text := hkeys ▸ List.mem_map_of_mem he
      rw [← heq] at hkey
      obtain ⟨s', hs', heq'⟩ := List.mem_map.mp hkey
      rwa [← Key.text.inj heq']
    obtain ⟨hfreq, hflags⟩ := hnames f.id f.id_lt hid _ hmem
    rw [if_neg hid, hnone _ hfreq, hnone _ hflags]
    exact ⟨rfl, rfl⟩

def channels : Part → List (ℕ × ℕ)
  | .radiotap p => p.fields.filterMap channelOf
  | .vendor _ => []

theorem filterMap_entries (parts : List Part) :
    (RadiotapLayout.entries parts).filterMap (entry · (.text "chan_freq")) =
        (parts.flatMap channels).map (.number ·.1) ∧
      (RadiotapLayout.entries parts).filterMap (entry · (.text "chan_flags")) =
        (parts.flatMap channels).map (.number ·.2) := by
  induction parts with
  | nil => exact ⟨rfl, rfl⟩
  | cons p parts ih =>
    rw [RadiotapLayout.entries, List.filterMap_append, List.filterMap_append, ih.1, ih.2,
      List.flatMap_cons, List.map_append, List.map_append]
    cases p with
    | radiotap p =>
      rw [Part.entries, List.filterMap_map, List.filterMap_map, channels, List.map_filterMap,
        List.map_filterMap]
      exact ⟨congrArg (· ++ _) (List.filterMap_congr fun f _ => (entry_channel f).1),
        congrArg (· ++ _) (List.filterMap_congr fun f _ => (entry_channel f).2)⟩
    | vendor v => exact ⟨rfl, rfl⟩

def channel (h : Header) : Option (ℕ × ℕ) := (h.parts.flatMap channels).getLast?

theorem entry_merge_channel (h : Header) :
    entry (merge h.entries) (.text "chan_freq") = (channel h).map (.number ·.1) ∧
      entry (merge h.entries) (.text "chan_flags") = (channel h).map (.number ·.2) := by
  have hnodup := entries_nodup h.parts
  obtain ⟨hfreq, hflags⟩ := filterMap_entries h.parts
  rw [Header.entries, entry_merge hnodup, entry_merge hnodup, hfreq, hflags,
    List.getLast?_map, List.getLast?_map]
  exact ⟨rfl, rfl⟩

/-! ## Vendors without presence bits -/

def silent : Part → Bool
  | .radiotap _ => true
  | .vendor v => v.present.ids.isEmpty

theorem presence_ne_zero {is : List ℕ} (h : is ≠ []) (n : ℕ) : presence is n ≠ 0 := by
  cases is with
  | nil => exact absurd rfl h
  | cons i is =>
    have hmono : ∀ (is : List ℕ) (n : ℕ), n.testBit i = true → (presence is n).testBit i = true := by
      intro is
      induction is with
      | nil => exact fun _ h => h
      | cons j is ih =>
        intro n hn
        refine ih _ ?_
        rw [Nat.testBit_or, hn, Bool.true_or]
    intro hzero
    have hbit := hmono is (n ||| 1 <<< i) (by simp [Nat.testBit_or])
    rw [show presence is (n ||| 1 <<< i) = 0 from hzero, Nat.zero_testBit] at hbit
    cases hbit

theorem loud_recorded_iff (v : Vendor) (n : ℕ) : Loud (recorded v n) ↔ n ≠ 0 := by
  simp [Loud, recorded, entry_cons]

theorem quiet_entries (parts : List Part) :
    Quiet (RadiotapLayout.entries parts) ↔ parts.all silent = true := by
  have happend : ∀ es es' : List Dictionary, Quiet (es ++ es') ↔ Quiet es ∧ Quiet es' :=
    fun _ _ => List.forall_mem_append
  induction parts with
  | nil => simp [Quiet, RadiotapLayout.entries]
  | cons p parts ih =>
    rw [RadiotapLayout.entries, happend, List.all_cons, Bool.and_eq_true]
    refine and_congr ?_ ih
    cases p with
    | radiotap p =>
      refine iff_of_true ?_ rfl
      intro e he
      obtain ⟨f, -, rfl⟩ := List.mem_map.mp he
      exact (read_plain (List.mem_of_getElem? f.parser_eq) f.read).quiet
    | vendor v =>
      rw [silent, List.isEmpty_iff, Part.entries, Quiet, List.forall_mem_singleton,
        loud_recorded_iff, not_not]
      by_cases hids : v.present.ids = []
      · simp [hids, presence]
      · refine iff_of_false (presence_ne_zero ?_ 0) hids
        split
        · exact hids
        · simpa using hids

theorem dictionary_encode (h : Header) (frame : Bytes) :
    radiotapParse dictionary (h.encode ++ frame) =
      if h.parts.all silent = true then .ok (h.length, merge h.entries)
      else .error .keyError := by
  have hlist := h.radiotapParse_list frame
  obtain ⟨hquiet, hloud⟩ := (modes_agree (h.encode ++ frame)).1 _ _ hlist
  by_cases hsilent : h.parts.all silent = true
  · rw [if_pos hsilent]
    exact hquiet ((quiet_entries h.parts).mpr hsilent)
  · rw [if_neg hsilent]
    exact hloud (mt (quiet_entries h.parts).mp hsilent)

theorem receive_parseRadiotap (h : Header) (hsilent : h.parts.all silent = true)
    (frame : Bytes) :
    WlanReceive.parseRadiotap vendored (h.encode ++ frame) =
      match channel h with
      | none => .ok (⟨none, none, none⟩, frame)
      | some (chanFreq, chanFlags) => do
        let c ← convertFreqToChannel chanFreq
        return (⟨some chanFreq, some chanFlags, some c⟩, frame) := by
  have hdrop : (h.encode ++ frame).drop h.length = frame := List.drop_left' h.length_encode
  obtain ⟨hfreq, hflags⟩ := entry_merge_channel h
  have hparse := dictionary_encode h frame
  rw [if_pos hsilent] at hparse
  simp only [WlanReceive.parseRadiotap, vendored, hparse, number, hfreq, hflags, hdrop]
  cases channel h with
  | none => rfl
  | some c => rfl

end InVehicle.RadiotapCapture
