import InVehicle.WlanRsn

/-!
# RSN elements that end early

A RSN element may end behind its group cipher and behind each of the parts that
follow it. The grammar tells where from the length alone.
-/

set_option autoImplicit false

namespace InVehicle.WlanRsnParts
open InVehicle.Words InVehicle.Formats InVehicle.Formats.Format InVehicle.FormatLaws
open InVehicle.WlanEnums InVehicle.WlanElements InVehicle.WlanElementLaws
open InVehicle.WlanRsn InVehicle.WlanRsn.RsnContent

abbrev Counted (α : Type) := {l : List α // l.length < 256 ^ 2}

def counted {α : Type} (write : α → Bytes) (l : Counted α) : Bytes :=
  byte.le 2 l.val.length ++ l.val.flatMap write

structure PmkidPart where
  pmkids : Counted Pmkid
  management : Option UInt32

structure CapabilityPart where
  first : UInt8
  second : UInt8
  rest : Option PmkidPart

structure AkmPart where
  akms : Counted UInt32
  rest : Option CapabilityPart

structure PairwisePart where
  suites : Counted UInt32
  rest : Option AkmPart

structure RsnParts where
  version : UInt16
  group : UInt32
  rest : Option PairwisePart

/-! ## On air -/

section Bytes

def partBytes {α : Type} (write : α → Bytes) (part : Option α) : Bytes := part.toList.flatMap write

def PmkidPart.encode (p : PmkidPart) : Bytes :=
  counted Subtype.val p.pmkids ++ partBytes suite p.management

def CapabilityPart.encode (c : CapabilityPart) : Bytes :=
  c.first :: c.second :: partBytes PmkidPart.encode c.rest

def AkmPart.encode (a : AkmPart) : Bytes :=
  counted suite a.akms ++ partBytes CapabilityPart.encode a.rest

def PairwisePart.encode (p : PairwisePart) : Bytes :=
  counted suite p.suites ++ partBytes AkmPart.encode p.rest

def RsnParts.encode (r : RsnParts) : Bytes :=
  byte.le 2 r.version.toNat ++ (suite r.group ++ partBytes PairwisePart.encode r.rest)

end Bytes

/-! ## As the grammar reads it -/

def capabilities (x y : UInt8) : RsnCapabilities where
  preAuthentication := x.toNat.testBit 7
  noPairwise := x.toNat.testBit 6
  ptksaReplayCounter := x.toNat / 16 % 4
  gtksaReplayCounter := x.toNat / 4 % 4
  managementFrameProtectionRequired := x.toNat.testBit 1
  managementFrameProtectionCapable := x.toNat.testBit 0
  jointMultiBandRSNA := y.toNat.testBit 7
  peerKeyEnabled := y.toNat.testBit 6
  sppAMSDUCapable := y.toNat.testBit 5
  sppAMSDURequired := y.toNat.testBit 4
  pbac := y.toNat.testBit 3
  extendedKeyIDForUnicast := y.toNat.testBit 2
  ocvc := y.toNat.testBit 1
  resurved := y.toNat.testBit 0

def cipherSuite (n : UInt32) : RSNCipherSuites := RSNCipherSuites.decode n.toNat

def akmSuite (n : UInt32) : AKMSuites := AKMSuites.decode n.toNat

namespace RsnParts
variable (r : RsnParts)

def pairwise : List UInt32 := r.rest.elim [] fun p => p.suites.val

def akmPart : Option AkmPart := r.rest.bind PairwisePart.rest

def akms : List UInt32 := r.akmPart.elim [] fun a => a.akms.val

def capabilityPart : Option CapabilityPart := r.akmPart.bind AkmPart.rest

def pmkidPart : Option PmkidPart := r.capabilityPart.bind CapabilityPart.rest

def pmkids : List Pmkid := r.pmkidPart.elim [] fun p => p.pmkids.val

def management : Option UInt32 := r.pmkidPart.bind PmkidPart.management

/-- The parts that are there, and nothing for the others. -/
def value : RsnElement where
  version := r.version.toNat
  groupCipherSuite := cipherSuite r.group
  pairwiseCipherSuiteCount := r.pairwise.length
  pairwiseCipherSuites := r.pairwise.map cipherSuite
  akmSuiteCount := r.akms.length
  akmSuites := r.akms.map akmSuite
  rsnCapabilities := r.capabilityPart.map fun c => capabilities c.first c.second
  pmkidCount := r.pmkids.length
  pmkids := r.pmkids.map Subtype.val
  groupManagmentCipherSuite := r.management.map cipherSuite

/-- The length that the place where the element ends comes to. -/
def len : ℕ :=
  match r.rest with
  | none => 6
  | some ⟨suites, none⟩ => 8 + 4 * suites.val.length
  | some ⟨suites, some ⟨akms, none⟩⟩ => 10 + 4 * suites.val.length + 4 * akms.val.length
  | some ⟨suites, some ⟨akms, some ⟨_, _, none⟩⟩⟩ =>
    12 + 4 * suites.val.length + 4 * akms.val.length
  | some ⟨suites, some ⟨akms, some ⟨_, _, some ⟨pmkids, none⟩⟩⟩⟩ =>
    14 + 4 * suites.val.length + 4 * akms.val.length + 16 * pmkids.val.length
  | some ⟨suites, some ⟨akms, some ⟨_, _, some ⟨pmkids, some _⟩⟩⟩⟩ =>
    18 + 4 * suites.val.length + 4 * akms.val.length + 16 * pmkids.val.length

end RsnParts

/-! ## Reading the parts -/

/-- The element is as long as the part, which begins at `start`, calls for; without
the part there is no room for a count either. -/
def Fits {α : Type} (write : α → Bytes) (start len : ℕ) : Option α → Prop
  | none => len < start + 2
  | some part => len = start + (write part).length

section Parse
variable {n k m len start : ℕ} (s : Bytes)

theorem length_counted_suites (l : Counted UInt32) :
    (counted suite l).length = 2 + 4 * l.val.length := by
  rw [counted, List.length_append, Digit.length_le, length_suites]

theorem length_counted_pmkids (l : Counted Pmkid) :
    (counted Subtype.val l).length = 2 + 16 * l.val.length := by
  rw [counted, List.length_append, Digit.length_le, length_pmkids]

theorem unpack_bits (x : UInt8) : unpack false x = [x.toNat.testBit 7, x.toNat.testBit 6,
    x.toNat.testBit 5, x.toNat.testBit 4, x.toNat.testBit 3, x.toNat.testBit 2,
    x.toNat.testBit 1, x.toNat.testBit 0] := by
  have hbits : byteBits x = (List.range 8).map fun i => x.toNat.testBit i := by
    refine List.ext_getElem (by simp) fun i hi _ => ?_
    have hlt : i < 8 := by simpa using hi
    rw [List.getElem_map, List.getElem_range, ← getD_le 8 _ i hlt, ← byteBits,
      List.getD_eq_getElem _ _ hi]
  rw [unpack, if_neg (by decide), hbits]
  rfl

theorem ofBe_two (n i : ℕ) :
    bit.ofBe [n.testBit (i + 1), n.testBit i] = n / 2 ^ i % 4 := by
  have hlow : (n.testBit i).toNat = n / 2 ^ i % 2 := Nat.toNat_testBit n i
  have hhigh : (n.testBit (i + 1)).toNat = n / 2 ^ i / 2 % 2 := by
    rw [Nat.toNat_testBit, Nat.pow_succ, Nat.div_div_eq_div_mul]
  show (n.testBit i).toNat + 2 * ((n.testBit (i + 1)).toNat + 2 * 0) = _
  rw [hlow, hhigh]
  omega

theorem capabilityBits_read (a b c d e f g h i j k l m n o p : Bool) :
    rsnCapabilityBits.parseAll [a, b, c, d, e, f, g, h, i, j, k, l, m, n, o, p] =
      .ok (a, b, bit.ofBe [c, d], bit.ofBe [e, f], g, h, i, j, k, l, m, n, o, p) := rfl

theorem capabilities_read (x y : UInt8) :
    rsnCapabilities.parse (x :: y :: s) = .ok (capabilities x y, s) := by
  have hbits : [x, y].flatMap (unpack false) = unpack false x ++ unpack false y := by simp
  rw [unpack_bits, unpack_bits] at hbits
  have hall := (congrArg rsnCapabilityBits.parseAll hbits).trans (capabilityBits_read ..)
  rw [ofBe_two x.toNat 4, ofBe_two x.toNat 2] at hall
  exact (map_parse _).mpr ⟨_, bitStruct_parse (u := [x, y]) rfl hall, rfl⟩

theorem partBytes_some {α : Type} (write : α → Bytes) (a : α) :
    partBytes write (some a) = write a := by
  rw [partBytes, Option.toList_some, List.flatMap_singleton]

theorem fits_rest {α : Type} {write : α → Bytes} (rest : Option α)
    (h : len = start + (partBytes write rest).length) : Fits write start len rest := by
  cases rest with
  | none =>
    rw [partBytes, Option.toList_none, List.flatMap_nil, List.length_nil] at h
    show len < start + 2
    omega
  | some part => rwa [partBytes_some] at h

section Counted
variable {α β γ : Type} {X : Format UInt8 β} {next : ℕ → Format UInt8 γ} {c : Bool} {v : γ}
  {t : Bytes}

theorem counted_read {write : α → Bytes} {read : α → β}
    (hX : ∀ l s, (array (List.length l) X).parse (l.flatMap write ++ s) = .ok (l.map read, s))
    (hc : c = true) (l : Counted α) (hnext : (next l.val.length).parse t = .ok (v, s)) :
    ((countIf c).seq fun k => (array k X).pair (next k)).parse (counted write l ++ t) =
      .ok ((l.val.length, l.val.map read, v), s) := by
  rw [counted, List.append_assoc]
  exact (seq_parse _ _).mpr ⟨_, count_parse hc _ _ l.property,
    (seq_parse _ _).mpr ⟨t, hX l.val t, hnext⟩⟩

theorem uncounted_read (hc : c = false) (hnext : (next 0).parse s = .ok (v, t)) :
    ((countIf c).seq fun k => (array k X).pair (next k)).parse s = .ok ((0, [], v), t) := by
  subst hc
  exact (seq_parse _ _).mpr ⟨s, rfl, (seq_parse _ _).mpr ⟨s, rfl, hnext⟩⟩

end Counted

theorem management_read {part : Option UInt32} (h : Fits suite start len part)
    (hn : n = start + 4) :
    (optional (n ≤ len) rsnCipherSuites).parse (partBytes suite part ++ s) =
      .ok (part.map cipherSuite, s) := by
  cases part with
  | none =>
    have hlen : len < start + 2 := h
    rw [decide_eq_false (by omega)]
    rfl
  | some c =>
    have hlen : len = start + (suite c).length := h
    rw [suite, Digit.length_be] at hlen
    rw [decide_eq_true (by omega), partBytes_some]
    exact (variant_parse _).mpr ⟨_, cipher_parse c s, rfl⟩

theorem pmkidPart_read {part : Option PmkidPart} (h : Fits PmkidPart.encode (12 + n) len part) :
    (tailFormat n len).parse (partBytes PmkidPart.encode part ++ s) =
      .ok ((part.elim 0 fun p => p.pmkids.val.length,
        part.elim [] fun p => p.pmkids.val.map Subtype.val,
        (part.bind PmkidPart.management).map cipherSuite), s) := by
  cases part with
  | none =>
    have hlen : len < 12 + n + 2 := h
    have hfits : Fits suite (14 + n + 0 * 16) len none := by
      show len < 14 + n + 0 * 16 + 2
      omega
    exact uncounted_read s (decide_eq_false (by omega)) (management_read s hfits (by omega))
  | some p =>
    obtain ⟨pmkids, management⟩ := p
    have hlen : len = 12 + n + (PmkidPart.encode ⟨pmkids, management⟩).length := h
    simp only [PmkidPart.encode, List.length_append, length_counted_pmkids] at hlen
    have hfits : Fits suite (14 + n + pmkids.val.length * 16) len management :=
      fits_rest management (by omega)
    rw [partBytes_some, PmkidPart.encode, List.append_assoc]
    exact counted_read s pmkids_parse (decide_eq_true (by omega)) pmkids
      (management_read s hfits (by omega))

abbrev capabilityFormat (n len : ℕ) :=
  (optional (12 + n ≤ len) rsnCapabilities).pair (tailFormat n len)

theorem capabilityPart_read {part : Option CapabilityPart}
    (h : Fits CapabilityPart.encode (10 + n) len part) :
    (capabilityFormat n len).parse (partBytes CapabilityPart.encode part ++ s) =
      .ok ((part.map fun c => capabilities c.first c.second,
        (part.bind CapabilityPart.rest).elim 0 fun p => p.pmkids.val.length,
        (part.bind CapabilityPart.rest).elim [] fun p => p.pmkids.val.map Subtype.val,
        ((part.bind CapabilityPart.rest).bind PmkidPart.management).map cipherSuite), s) := by
  cases part with
  | none =>
    have hlen : len < 10 + n + 2 := h
    have hfits : Fits PmkidPart.encode (12 + n) len none := by
      show len < 12 + n + 2
      omega
    refine (seq_parse _ _).mpr ⟨s, ?_, pmkidPart_read s hfits⟩
    rw [decide_eq_false (by omega)]
    rfl
  | some c =>
    obtain ⟨first, second, rest⟩ := c
    have hlen : len = 10 + n + (CapabilityPart.encode ⟨first, second, rest⟩).length := h
    simp only [CapabilityPart.encode, List.length_cons] at hlen
    have hfits : Fits PmkidPart.encode (12 + n) len rest := fits_rest rest (by omega)
    refine (seq_parse _ _).mpr ⟨partBytes PmkidPart.encode rest ++ s, ?_, pmkidPart_read s hfits⟩
    rw [decide_eq_true (by omega), partBytes_some]
    exact (variant_parse _).mpr ⟨_, capabilities_read _ first second, rfl⟩

/-- The AKM suites and what follows them, behind `k` pairwise ciphers. -/
abbrev akmFormat (k len : ℕ) :=
  (countIf (10 + k * 4 ≤ len)).seq fun m => (array m akmSuites).pair <|
    capabilityFormat (k * 4 + m * 4) len

theorem akmPart_read {part : Option AkmPart} (h : Fits AkmPart.encode (8 + k * 4) len part) :
    (akmFormat k len).parse (partBytes AkmPart.encode part ++ s) =
      .ok ((part.elim 0 fun a => a.akms.val.length,
        part.elim [] fun a => a.akms.val.map akmSuite,
        (part.bind AkmPart.rest).map fun c => capabilities c.first c.second,
        ((part.bind AkmPart.rest).bind CapabilityPart.rest).elim 0 fun p => p.pmkids.val.length,
        ((part.bind AkmPart.rest).bind CapabilityPart.rest).elim []
          fun p => p.pmkids.val.map Subtype.val,
        (((part.bind AkmPart.rest).bind CapabilityPart.rest).bind
          PmkidPart.management).map cipherSuite), s) := by
  cases part with
  | none =>
    have hlen : len < 8 + k * 4 + 2 := h
    have hfits : Fits CapabilityPart.encode (10 + (k * 4 + 0 * 4)) len none := by
      show len < 10 + (k * 4 + 0 * 4) + 2
      omega
    exact uncounted_read s (decide_eq_false (by omega)) (capabilityPart_read s hfits)
  | some a =>
    obtain ⟨akms, rest⟩ := a
    have hlen : len = 8 + k * 4 + (AkmPart.encode ⟨akms, rest⟩).length := h
    simp only [AkmPart.encode, List.length_append, length_counted_suites] at hlen
    have hfits : Fits CapabilityPart.encode (10 + (k * 4 + akms.val.length * 4)) len rest :=
      fits_rest rest (by omega)
    rw [partBytes_some, AkmPart.encode, List.append_assoc]
    exact counted_read s (array_parse akm_parse) (decide_eq_true (by omega)) akms
      (capabilityPart_read s hfits)

abbrev pairwiseFormat (len : ℕ) :=
  (countIf (8 ≤ len)).seq fun k => (array k rsnCipherSuites).pair (akmFormat k len)

theorem pairwisePart_read {part : Option PairwisePart} (h : Fits PairwisePart.encode 6 len part) :
    (pairwiseFormat len).parse (partBytes PairwisePart.encode part ++ s) =
      .ok ((part.elim 0 fun p => p.suites.val.length,
        part.elim [] fun p => p.suites.val.map cipherSuite,
        (part.bind PairwisePart.rest).elim 0 fun a => a.akms.val.length,
        (part.bind PairwisePart.rest).elim [] fun a => a.akms.val.map akmSuite,
        ((part.bind PairwisePart.rest).bind AkmPart.rest).map
          fun c => capabilities c.first c.second,
        (((part.bind PairwisePart.rest).bind AkmPart.rest).bind CapabilityPart.rest).elim 0
          fun p => p.pmkids.val.length,
        (((part.bind PairwisePart.rest).bind AkmPart.rest).bind CapabilityPart.rest).elim []
          fun p => p.pmkids.val.map Subtype.val,
        ((((part.bind PairwisePart.rest).bind AkmPart.rest).bind CapabilityPart.rest).bind
          PmkidPart.management).map cipherSuite), s) := by
  cases part with
  | none =>
    have hlen : len < 6 + 2 := h
    have hfits : Fits AkmPart.encode (8 + 0 * 4) len none := by
      show len < 8 + 0 * 4 + 2
      omega
    exact uncounted_read s (decide_eq_false (by omega)) (akmPart_read s hfits)
  | some p =>
    obtain ⟨suites, rest⟩ := p
    have hlen : len = 6 + (PairwisePart.encode ⟨suites, rest⟩).length := h
    simp only [PairwisePart.encode, List.length_append, length_counted_suites] at hlen
    have hfits : Fits AkmPart.encode (8 + suites.val.length * 4) len rest :=
      fits_rest rest (by omega)
    rw [partBytes_some, PairwisePart.encode, List.append_assoc]
    exact counted_read s (array_parse cipher_parse) (decide_eq_true (by omega)) suites
      (akmPart_read s hfits)

theorem rsnElement_eq (len : ℕ) : rsnElement len =
    (int16ul.pair <| rsnCipherSuites.pair <| pairwiseFormat len).map
      (fun ⟨a, b, c, d, e, f, g, h, i, j⟩ => ⟨a, b, c, d, e, f, g, h, i, j⟩)
      (fun ⟨a, b, c, d, e, f, g, h, i, j⟩ => ⟨a, b, c, d, e, f, g, h, i, j⟩) := by
  simp only [rsnElement, pairwiseFormat, akmFormat, capabilityFormat, tailFormat, Nat.add_assoc]

end Parse

namespace RsnParts
variable (r : RsnParts)

theorem length_encode : r.encode.length = r.len := by
  obtain ⟨version, group, rest⟩ := r
  simp only [encode, List.length_append, Digit.length_le, suite, Digit.length_be]
  rcases rest with - | ⟨suites, - | ⟨akms, - | ⟨x, y, - | ⟨pmkids, - | c⟩⟩⟩⟩
  all_goals
    simp only [partBytes, Option.toList_none, Option.toList_some, List.flatMap_nil,
      List.flatMap_singleton, PairwisePart.encode, AkmPart.encode, CapabilityPart.encode,
      PmkidPart.encode, List.length_append, List.length_cons, List.length_nil,
      length_counted_suites, length_counted_pmkids, suite, Digit.length_be, len]
  all_goals omega

theorem parse_encode (s : Bytes) :
    (rsnElement r.len).parse (r.encode ++ s) = .ok (r.value, s) := by
  have hlen : r.len = 6 + (partBytes PairwisePart.encode r.rest).length := by
    rw [← length_encode]
    simp only [encode, List.length_append, Digit.length_le, suite, Digit.length_be]
    omega
  have hversion : int16ul.parse (r.encode ++ s) =
      .ok (r.version.toNat, suite r.group ++ (partBytes PairwisePart.encode r.rest ++ s)) := by
    rw [encode, List.append_assoc, List.append_assoc]
    exact le_parse byte 2 _ _ r.version.toNat_lt
  have hgroup := cipher_parse r.group (partBytes PairwisePart.encode r.rest ++ s)
  have hread := pairwisePart_read s (fits_rest r.rest hlen)
  rw [rsnElement_eq]
  refine (map_parse _).mpr ⟨(r.version.toNat, cipherSuite r.group, _),
    (seq_parse _ _).mpr ⟨_, hversion, (seq_parse _ _).mpr ⟨_, hgroup, hread⟩⟩, ?_⟩
  obtain ⟨version, group, rest⟩ := r
  rcases rest with - | ⟨suites, - | ⟨akms, - | ⟨x, y, - | ⟨pmkids, management⟩⟩⟩⟩ <;> rfl

/-- Wherever the element ends, it is read to its end with the parts that are there, and
written back as it was. -/
theorem parts_roundtrip (s : Bytes) :
    r.encode.length = r.len ∧ (rsnElement r.len).parse (r.encode ++ s) = .ok (r.value, s) ∧
      (rsnElement r.len).build r.value = .ok r.encode := by
  refine ⟨r.length_encode, r.parse_encode s, ?_⟩
  obtain ⟨u, hu, hbuild⟩ := Invertible.written _ _ _ (r.parse_encode [])
  rw [List.append_nil, List.append_nil] at hu
  rwa [hu]

end RsnParts

end InVehicle.WlanRsnParts
