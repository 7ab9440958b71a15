import InVehicle.HexText
import InVehicle.Search
import InVehicle.Words

/-!
# The records of a ReadDataByIdentifier response

`UdsUtils._split_dids` looks for the identifiers one after another and takes what
stands between two of them for the data of the first. The position -1 is `none`
here. What it does from an identifier on depends on the bytes behind it alone.
-/

set_option autoImplicit false

namespace InVehicle.DidRecords
open InVehicle.Words InVehicle.HexText InVehicle.Search InVehicle.TextCodecs

structure RdidDataTuple where
  did : ℤ
  data : Text
  deriving DecidableEq, Repr

inductive DidError where
  | overflowError
  deriving DecidableEq, Repr

/-- `to_bytes(length=2, byteorder='big')` -/
def toBytes (did : ℤ) : Except DidError Bytes :=
  if 0 ≤ did ∧ did < 256 ^ 2 then .ok (byte.be 2 did.toNat) else .error .overflowError

/-- `didlist: Union[int, list[int]]` -/
inductive DidList where
  | one (did : ℤ)
  | many (dids : List ℤ)
  deriving DecidableEq, Repr

def DidList.dids : DidList → List ℤ
  | .one did => [did]
  | .many dids => dids

def currPosition (dataBytes : Bytes) (i : ℕ) (nextPosition : Option ℕ) (currDidInt : ℤ) :
    Except DidError (Option ℕ) :=
  if i = 0 then return find (← toBytes currDidInt) dataBytes else .ok nextPosition

/-- One pass of the loop, `didlist` from the current identifier on. Returns the pair
that is appended and the next position. -/
def pass (dataBytes : Bytes) (currPosition nextPosition : Option ℕ) (currDidInt : ℤ)
    (later : List ℤ) : Except DidError (Option RdidDataTuple × Option ℕ) :=
  match currPosition, later with
  | none, _ => .ok (none, nextPosition)
  | some p, next :: _ => do
    let b ← toBytes next
    match findFrom b dataBytes (p + 2) with
    | none => return (some ⟨currDidInt, hex (dataBytes.drop (p + 2))⟩, none)
    | some q =>
      return (some ⟨currDidInt, hex ((dataBytes.take q).drop (p + 2))⟩, some q)
  | some p, [] => .ok (some ⟨currDidInt, hex (dataBytes.drop (p + 2))⟩, nextPosition)

/-- The `for` loop from the index `i` on. -/
def splitLoop (dataBytes : Bytes) : ℕ → Option ℕ → List ℤ → Except DidError (List RdidDataTuple)
  | _, _, [] => .ok []
  | i, nextPosition, currDidInt :: later => do
    let p ← currPosition dataBytes i nextPosition currDidInt
    let (t, nextPosition') ← pass dataBytes p nextPosition currDidInt later
    let didsValues ← splitLoop dataBytes (i + 1) nextPosition' later
    return t.toList ++ didsValues

def splitDids (didlist : DidList) (dataBytes : Bytes) : Except DidError (List RdidDataTuple) :=
  splitLoop dataBytes 0 (some 0) didlist.dids

/-! ## The loop on the bytes that are left -/

/-- `tail` are the bytes behind the two of `currDidInt`. -/
def scan : ℤ → List ℤ → Bytes → Except DidError (List RdidDataTuple)
  | currDidInt, [], tail => .ok [⟨currDidInt, hex tail⟩]
  | currDidInt, next :: later, tail => do
    match find (← toBytes next) tail with
    | none => return [⟨currDidInt, hex tail⟩]
    | some k =>
      return ⟨currDidInt, hex (tail.take k)⟩ :: (← scan next later (tail.drop (k + 2)))

theorem length_toBytes {did : ℤ} {b : Bytes} (h : toBytes did = .ok b) : b.length = 2 := by
  rw [toBytes] at h
  split_ifs at h
  cases h
  exact byte.length_be 2 _

theorem splitLoop_none (dataBytes : Bytes) (i : ℕ) (dids : List ℤ) :
    splitLoop dataBytes (i + 1) none dids = .ok [] := by
  induction dids generalizing i with
  | nil => rfl
  | cons did dids ih =>
    have hrest := ih (i + 1)
    show (splitLoop dataBytes (i + 1 + 1) none dids >>= fun didsValues => .ok didsValues) = .ok []
    rw [hrest]
    rfl

theorem pass_some (dataBytes b : Bytes) (p : ℕ) (nextPosition : Option ℕ) (did next : ℤ)
    (later : List ℤ) (hb : toBytes next = .ok b) :
    pass dataBytes (some p) nextPosition did (next :: later) =
      match find b (dataBytes.drop (p + 2)) with
      | none => .ok (some ⟨did, hex (dataBytes.drop (p + 2))⟩, none)
      | some k => .ok (some ⟨did, hex ((dataBytes.drop (p + 2)).take k)⟩, some (p + 2 + k)) := by
  have hne : b ≠ [] := List.ne_nil_of_length_pos (by rw [length_toBytes hb]; omega)
  rw [pass, hb]
  show (match findFrom b dataBytes (p + 2) with | none => _ | some q => _) = _
  rw [findFrom_eq b dataBytes (p + 2) hne]
  cases find b (dataBytes.drop (p + 2)) with
  | none => rfl
  | some k =>
    have htake : (dataBytes.take (p + 2 + k)).drop (p + 2) = (dataBytes.drop (p + 2)).take k := by
      rw [List.drop_take, Nat.add_sub_cancel_left]
    simp only [Option.map_some, htake]
    rfl

/-- The rest of a pass, once the current position is known, and the passes after it. -/
def passes (dataBytes : Bytes) (i : ℕ) (p nextPosition : Option ℕ) (did : ℤ) (later : List ℤ) :
    Except DidError (List RdidDataTuple) :=
  pass dataBytes p nextPosition did later >>= fun x =>
    splitLoop dataBytes (i + 1) x.2 later >>= fun didsValues => .ok (x.1.toList ++ didsValues)

theorem splitLoop_cons (dataBytes : Bytes) (i : ℕ) (nextPosition : Option ℕ) (did : ℤ)
    (later : List ℤ) :
    splitLoop dataBytes i nextPosition (did :: later) =
      currPosition dataBytes i nextPosition did >>= fun p =>
        passes dataBytes i p nextPosition did later := rfl

theorem passes_some (dataBytes : Bytes) (i p : ℕ) (nextPosition : Option ℕ) (did : ℤ)
    (later : List ℤ) :
    passes dataBytes i (some p) nextPosition did later =
      scan did later (dataBytes.drop (p + 2)) := by
  induction later generalizing i p nextPosition did with
  | nil => rfl
  | cons next later ih =>
    rw [passes, scan]
    cases hb : toBytes next with
    | error e =>
      rw [pass, hb]
      rfl
    | ok b =>
      rw [pass_some dataBytes b p nextPosition did next later hb]
      show _ = (match find b (dataBytes.drop (p + 2)) with | none => _ | some k => _)
      cases find b (dataBytes.drop (p + 2)) with
      | none =>
        show (splitLoop dataBytes (i + 1) none (next :: later) >>= _) = _
        rw [splitLoop_none]
        rfl
      | some k =>
        have htail : dataBytes.drop (p + 2 + k + 2) = (dataBytes.drop (p + 2)).drop (k + 2) := by
          rw [List.drop_drop, Nat.add_assoc]
        show (passes dataBytes (i + 1) (some (p + 2 + k)) _ next later >>= _) = _
        rw [ih, htail]
        rfl

section First

variable {didlist : DidList} {did : ℤ} {later : List ℤ} {dataBytes b : Bytes}

theorem splitDids_found {p : ℕ} (h : didlist.dids = did :: later) (hb : toBytes did = .ok b)
    (hp : find b dataBytes = some p) :
    splitDids didlist dataBytes = scan did later (dataBytes.drop (p + 2)) := by
  rw [splitDids, h, splitLoop_cons, currPosition, if_pos rfl, hb]
  show passes dataBytes 0 (find b dataBytes) _ did later = _
  rw [hp, passes_some]

theorem splitDids_absent {next : ℤ} (h : didlist.dids = did :: next :: later)
    (hb : toBytes did = .ok b) (hp : find b dataBytes = none) :
    splitDids didlist dataBytes = scan next later (dataBytes.drop 2) := by
  rw [splitDids, h, splitLoop_cons, currPosition, if_pos rfl, hb]
  show passes dataBytes 0 (find b dataBytes) _ did (next :: later) = _
  rw [hp]
  show (passes dataBytes 1 (some 0) _ next later >>= fun didsValues => .ok didsValues) = _
  rw [passes_some]
  cases scan next later (dataBytes.drop 2) <;> rfl

theorem splitDids_single (h : didlist.dids = [did]) (hb : toBytes did = .ok b)
    (hp : find b dataBytes = none) : splitDids didlist dataBytes = .ok [] := by
  rw [splitDids, h, splitLoop_cons, currPosition, if_pos rfl, hb]
  show passes dataBytes 0 (find b dataBytes) _ did [] = _
  rw [hp]
  rfl

end First

/-! ## Records -/

abbrev Did := Fin (256 ^ 2)

def didBytes (d : Did) : Bytes := byte.be 2 d.val

structure Record where
  did : Did
  data : Bytes
  deriving DecidableEq, Repr

def Record.bytes (r : Record) : Bytes := didBytes r.did ++ r.data

def Record.pair (r : Record) : RdidDataTuple := ⟨r.did.val, hex r.data⟩

def response (records : List Record) : Bytes := records.flatMap Record.bytes

def requested (dids : List Did) : DidList := .many (dids.map fun d => (d.val : ℤ))

@[simp] theorem length_didBytes (d : Did) : (didBytes d).length = 2 := byte.length_be 2 _

theorem toBytes_did (d : Did) : toBytes d.val = .ok (didBytes d) := by
  have hd := d.isLt
  have hrange : (0 : ℤ) ≤ (d.val : ℤ) ∧ (d.val : ℤ) < 256 ^ 2 := by omega
  rw [toBytes, if_pos hrange, Int.toNat_natCast]
  rfl

theorem response_cons (r : Record) (rs : List Record) :
    response (r :: rs) = didBytes r.did ++ (r.data ++ response rs) := by
  rw [response, List.flatMap_cons, Record.bytes, List.append_assoc]
  rfl

theorem drop_response (r : Record) (rs : List Record) :
    (response (r :: rs)).drop 2 = r.data ++ response rs := by
  rw [response_cons, List.drop_left' (length_didBytes r.did)]

theorem scan_some {did : ℤ} {next : Did} {later : List ℤ} {tail : Bytes} {k : ℕ}
    (hk : find (didBytes next) tail = some k) (t : RdidDataTuple) (ts : List RdidDataTuple) :
    scan did (next.val :: later) tail = .ok (t :: ts) ↔
      ⟨did, hex (tail.take k)⟩ = t ∧ scan next.val later (tail.drop (k + 2)) = .ok ts := by
  rw [scan, toBytes_did]
  show (match find (didBytes next) tail with | none => _ | some k => _) = _ ↔ _
  rw [hk]
  show (scan next.val later (tail.drop (k + 2)) >>= _) = _ ↔ _
  cases scan next.val later (tail.drop (k + 2)) with
  | error e => simp [bind, Except.bind]
  | ok us => simp [bind, Except.bind, pure, Except.pure]

theorem scan_none {did : ℤ} {next : Did} {later : List ℤ} {tail : Bytes}
    (hk : find (didBytes next) tail = none) :
    scan did (next.val :: later) tail = .ok [⟨did, hex tail⟩] := by
  rw [scan, toBytes_did]
  show (match find (didBytes next) tail with | none => _ | some k => _) = _
  rw [hk]
  rfl

/-! ## Which responses are split into their records -/

/-- The identifier of `s` is not found before the end of the data of `r`. -/
def Separated (r s : Record) : Prop :=
  find (didBytes s.did) (r.data ++ didBytes s.did) = some r.data.length

instance (r s : Record) : Decidable (Separated r s) := by
  unfold Separated
  infer_instance

theorem drop_record (r : Record) (rs : List Record) (data : Bytes) :
    (data ++ response (r :: rs)).drop (data.length + 2) = r.data ++ response rs := by
  rw [← List.drop_drop, List.drop_left, drop_response]

theorem scan_records (r : Record) (rs : List Record) :
    scan r.did.val (rs.map fun r => (r.did.val : ℤ)) (r.data ++ response rs) =
        .ok ((r :: rs).map Record.pair) ↔
      (r :: rs).IsChain Separated := by
  induction rs generalizing r with
  | nil =>
    have htail : r.data ++ response [] = r.data := List.append_nil _
    rw [List.map_nil, htail]
    exact iff_of_true rfl (List.isChain_singleton r)
  | cons s rs ih =>
    have hat : At (didBytes s.did) (r.data ++ response (s :: rs)) r.data.length := by
      rw [response_cons]
      exact at_length _ _ _
    obtain ⟨k, hk, hle⟩ := find_of_at hat
    have hsep : Separated r s ↔ k = r.data.length := by
      rw [Separated, ← find_append_iff _ _ (s.data ++ response rs), ← response_cons, hk]
      exact Option.some_inj
    rw [List.map_cons, List.map_cons, scan_some hk, List.isChain_cons_cons, hsep]
    constructor
    · rintro ⟨hpair, hrest⟩
      have hdata := hex_injective (congrArg RdidDataTuple.data hpair)
      have hlen := congrArg List.length hdata
      rw [List.length_take, List.length_append] at hlen
      obtain rfl : k = r.data.length := by omega
      rw [drop_record] at hrest
      exact ⟨rfl, (ih s).mp hrest⟩
    · rintro ⟨rfl, hchain⟩
      rw [List.take_left, drop_record]
      exact ⟨rfl, (ih s).mpr hchain⟩

theorem dids_requested (dids : List Did) :
    (requested dids).dids = dids.map fun d => (d.val : ℤ) := rfl

/-- A response is split into its records exactly if no identifier is found early. -/
theorem splitDids_records_iff (records : List Record) :
    splitDids (requested (records.map Record.did)) (response records) =
        .ok (records.map Record.pair) ↔
      ∀ i, (h : i + 1 < records.length) →
        find (didBytes records[i + 1].did) (records[i].data ++ didBytes records[i + 1].did) =
          some records[i].data.length := by
  cases records with
  | nil => exact iff_of_true rfl fun i h => absurd h (by simp)
  | cons r rs =>
    have hfirst : find (didBytes r.did) (response (r :: rs)) = some 0 := by
      rw [response_cons]
      exact find_prefix _ _
    have hdids : (requested ((r :: rs).map Record.did)).dids =
        (r.did.val : ℤ) :: rs.map fun r => (r.did.val : ℤ) := by
      rw [dids_requested, List.map_map]
      rfl
    rw [splitDids_found hdids (toBytes_did r.did) hfirst, drop_response, scan_records,
      List.isChain_iff_getElem]
    rfl

/-- The identifier of the second record also ends the data of the first. -/
example : splitDids (requested [1, 2]) (response [⟨1, [0, 2, 7]⟩, ⟨2, []⟩]) =
    .ok [⟨1, hex []⟩, ⟨2, hex [7, 0, 2]⟩] := by
  decide +kernel

/-! ## The pairs tile the bytes -/

def reencode (t : RdidDataTuple) : Option Bytes :=
  match toBytes t.did, fromHex t.data with
  | .ok b, some data => some (b ++ data)
  | _, _ => none

def concatenation : List RdidDataTuple → Option Bytes
  | [] => some []
  | t :: ts => do return (← reencode t) ++ (← concatenation ts)

theorem reencode_hex {did : ℤ} {b : Bytes} (hb : toBytes did = .ok b) (data : Bytes) :
    reencode ⟨did, hex data⟩ = some (b ++ data) := by
  simp only [reencode, hb, fromHex_hex]

theorem scan_cases {did next : ℤ} {later : List ℤ} {tail : Bytes} {pairs : List RdidDataTuple}
    (h : scan did (next :: later) tail = .ok pairs) :
    ∃ b, toBytes next = .ok b ∧
      (find b tail = none ∧ pairs = [⟨did, hex tail⟩] ∨
        ∃ k ts, find b tail = some k ∧ scan next later (tail.drop (k + 2)) = .ok ts ∧
          pairs = ⟨did, hex (tail.take k)⟩ :: ts) := by
  rw [scan] at h
  cases hb : toBytes next with
  | error e => rw [hb] at h; cases h
  | ok b =>
    rw [hb] at h
    replace h : (match find b tail with | none => _ | some k => _) = _ := h
    refine ⟨b, rfl, ?_⟩
    cases hk : find b tail with
    | none =>
      rw [hk] at h
      cases h
      exact Or.inl ⟨rfl, rfl⟩
    | some k =>
      rw [hk] at h
      cases hs : scan next later (tail.drop (k + 2)) with
      | error e => simp only [hs, bind, Except.bind] at h; cases h
      | ok ts =>
        simp only [hs, bind, Except.bind, pure, Except.pure] at h
        cases h
        exact Or.inr ⟨k, ts, rfl, hs, rfl⟩

theorem scan_head {did : ℤ} {later : List ℤ} {tail : Bytes} {pairs : List RdidDataTuple}
    (h : scan did later tail = .ok pairs) : ∃ data ts, pairs = ⟨did, data⟩ :: ts := by
  cases later with
  | nil =>
    cases h
    exact ⟨_, _, rfl⟩
  | cons next later =>
    obtain ⟨b, -, ⟨-, rfl⟩ | ⟨k, ts, -, -, rfl⟩⟩ := scan_cases h <;> exact ⟨_, _, rfl⟩

theorem scan_length {did : ℤ} {later : List ℤ} {tail : Bytes} {pairs : List RdidDataTuple}
    (h : scan did later tail = .ok pairs) : pairs.length ≤ later.length + 1 := by
  induction later generalizing did tail pairs with
  | nil =>
    cases h
    exact le_rfl
  | cons next later ih =>
    obtain ⟨b, -, ⟨-, rfl⟩ | ⟨k, ts, -, hs, rfl⟩⟩ := scan_cases h
    · simp
    · have hlen := ih hs
      simp only [List.length_cons]
      omega

theorem scan_tiles {did : ℤ} {b : Bytes} {later : List ℤ} {tail : Bytes}
    {pairs : List RdidDataTuple} (hb : toBytes did = .ok b) (h : scan did later tail = .ok pairs)
    (hlen : pairs.length = later.length + 1) :
    pairs.map RdidDataTuple.did = did :: later ∧ concatenation pairs = some (b ++ tail) := by
  induction later generalizing did b tail pairs with
  | nil =>
    cases h
    simp [concatenation, reencode_hex hb]
  | cons next later ih =>
    obtain ⟨b', hb', ⟨-, rfl⟩ | ⟨k, ts, hk, hs, rfl⟩⟩ := scan_cases h
    · simp at hlen
    · obtain ⟨hdids, hconc⟩ := ih hb' hs (by simpa using hlen)
      have hdrop := ((find_eq_some_iff b' tail k).mp hk).1.drop_eq
      rw [length_toBytes hb'] at hdrop
      constructor
      · rw [List.map_cons, hdids]
      · rw [concatenation, reencode_hex hb, hconc, ← hdrop]
        show some (b ++ tail.take k ++ tail.drop k) = _
        rw [List.append_assoc, List.take_append_drop]

/-- With as many pairs as identifiers, no byte from the first identifier on is lost. -/
theorem splitDids_tiles (didlist : DidList) (dataBytes : Bytes) (pairs : List RdidDataTuple)
    (h : splitDids didlist dataBytes = .ok pairs) (hlen : pairs.length = didlist.dids.length) :
    pairs.map RdidDataTuple.did = didlist.dids ∧
      ∀ first ∈ didlist.dids.head?, ∃ b k, toBytes first = .ok b ∧
        find b dataBytes = some k ∧ concatenation pairs = some (dataBytes.drop k) := by
  cases hd : didlist.dids with
  | nil =>
    rw [hd] at hlen
    rw [List.length_eq_zero_iff.mp hlen]
    exact ⟨rfl, fun first hf => by cases hf⟩
  | cons did later =>
    cases hb : toBytes did with
    | error e =>
      rw [splitDids, hd, splitLoop_cons, currPosition, if_pos rfl, hb] at h
      cases h
    | ok b =>
      cases hp : find b dataBytes with
      | some p =>
        rw [splitDids_found hd hb hp] at h
        rw [hd] at hlen
        obtain ⟨hdids, hconc⟩ := scan_tiles hb h hlen
        have hdrop := ((find_eq_some_iff b dataBytes p).mp hp).1.drop_eq
        rw [length_toBytes hb] at hdrop
        refine ⟨hdids, ?_⟩
        rintro first ⟨⟩
        exact ⟨b, p, hb, hp, by rw [hconc, hdrop]⟩
      | none =>
        exfalso
        cases later with
        | nil =>
          rw [splitDids_single hd hb hp] at h
          cases h
          rw [hd] at hlen
          cases hlen
        | cons next later =>
          rw [splitDids_absent hd hb hp] at h
          have hle := scan_length h
          rw [hlen, hd, List.length_cons, List.length_cons] at hle
          omega

theorem splitDids_tiles_two :
    splitDids (.many [1, 2]) [9, 0, 1, 5, 0, 2] = .ok [⟨1, hex [5]⟩, ⟨2, hex []⟩] ∧
      ∃ b k, toBytes 1 = .ok b ∧ find b [9, 0, 1, 5, 0, 2] = some k ∧
        concatenation [⟨1, hex [5]⟩, ⟨2, hex []⟩] =
          some (([9, 0, 1, 5, 0, 2] : Bytes).drop k) := by
  have hsplit : splitDids (.many [1, 2]) [9, 0, 1, 5, 0, 2] =
      .ok [⟨1, hex [5]⟩, ⟨2, hex []⟩] := by decide +kernel
  exact ⟨hsplit, (splitDids_tiles (.many [1, 2]) _ _ hsplit rfl).2 1 rfl⟩

/-! ## Identifiers that the response leaves out -/

/-- The response answers some of the identifiers asked for, in their order, and the
bytes of an identifier stand nowhere but at the start of its own record. -/
structure Answers (dids : List Did) (records : List Record) : Prop where
  nodup : dids.Nodup
  sublist : (records.map Record.did).Sublist dids
  own : ∀ d ∈ dids, ∀ k, At (didBytes d) (response records) k →
    ∃ before r after, records = before ++ r :: after ∧ r.did = d ∧
      k = (response before).length

namespace Answers

variable {d : Did} {dids later : List Did} {r s : Record} {rs records : List Record}

theorem find_none (h : Answers dids records) (hd : d ∈ dids)
    (habsent : d ∉ records.map Record.did) : find (didBytes d) (response records) = none := by
  rw [find_eq_none_iff]
  intro k hk
  obtain ⟨before, r, after, rfl, rfl, -⟩ := h.own d hd k hk
  exact habsent (by simp)

theorem at_response {sub : Bytes} {k : ℕ} (h : At sub (r.data ++ response rs) k) :
    At sub (response (r :: rs)) (2 + k) := by
  rw [response_cons, ← length_didBytes r.did]
  exact (at_append_left_iff _ _ _ _).mpr h

theorem find_tail_none (h : Answers (r.did :: later) (r :: rs)) (hd : d ∈ later)
    (habsent : d ∉ rs.map Record.did) : find (didBytes d) (r.data ++ response rs) = none := by
  rw [find_eq_none_iff]
  intro k hk
  obtain ⟨before, q, after, heq, rfl, -⟩ :=
    h.own d (List.mem_cons_of_mem _ hd) (2 + k) (at_response hk)
  have hq : q ∈ r :: rs := heq ▸ by simp
  rcases List.mem_cons.mp hq with rfl | hq
  · exact (List.nodup_cons.mp h.nodup).1 hd
  · exact habsent (List.mem_map_of_mem hq)

theorem find_tail_some (h : Answers (r.did :: later) (r :: s :: rs)) (hd : s.did ∈ later) :
    find (didBytes s.did) (r.data ++ response (s :: rs)) = some r.data.length := by
  rw [find_eq_some_iff]
  constructor
  · rw [response_cons]
    exact at_length _ _ _
  · intro j hj hat
    obtain ⟨before, q, after, heq, hq, hpos⟩ :=
      h.own s.did (List.mem_cons_of_mem _ hd) (2 + j) (at_response hat)
    cases before with
    | nil =>
      obtain ⟨rfl, -⟩ := List.cons.inj heq
      exact (List.nodup_cons.mp h.nodup).1 (hq ▸ hd)
    | cons p before =>
      obtain ⟨rfl, -⟩ := List.cons.inj heq
      rw [response_cons, List.length_append, List.length_append, length_didBytes] at hpos
      omega

theorem tail (h : Answers (r.did :: dids) (r :: records)) : Answers dids records := by
  have hnodup := List.nodup_cons.mp h.nodup
  refine ⟨hnodup.2, List.cons_sublist_cons.mp h.sublist, fun d hd k hk => ?_⟩
  have hat : At (didBytes d) (response (r :: records)) (r.bytes.length + k) :=
    (at_append_left_iff _ r.bytes _ _).mpr hk
  obtain ⟨before, q, after, heq, rfl, hpos⟩ := h.own d (List.mem_cons_of_mem _ hd) _ hat
  cases before with
  | nil =>
    obtain ⟨rfl, -⟩ := List.cons.inj heq
    exact absurd hd hnodup.1
  | cons p before =>
    obtain ⟨rfl, rfl⟩ := List.cons.inj heq
    refine ⟨before, q, after, rfl, rfl, ?_⟩
    have hlen : (response (r :: before)).length = r.bytes.length + (response before).length := by
      rw [response, List.flatMap_cons, List.length_append]
      rfl
    omega

theorem skip (h : Answers (d :: dids) records) (hsub : (records.map Record.did).Sublist dids) :
    Answers dids records :=
  ⟨(List.nodup_cons.mp h.nodup).2, hsub, fun c hc => h.own c (List.mem_cons_of_mem _ hc)⟩

theorem head_or_absent (h : Answers (d :: dids) records) :
    (∃ r rs, records = r :: rs ∧ r.did = d) ∨
      d ∉ records.map Record.did ∧ (records.map Record.did).Sublist dids := by
  have hd := (List.nodup_cons.mp h.nodup).1
  rcases List.sublist_cons_iff.mp h.sublist with hsub | ⟨ds, hmap, -⟩
  · exact Or.inr ⟨fun hmem => hd (hsub.subset hmem), hsub⟩
  · obtain ⟨r, rs, rfl, hr, -⟩ := List.map_eq_cons_iff.mp hmap
    exact Or.inl ⟨r, rs, rfl, hr⟩

theorem scan_iff (h : Answers (r.did :: later) (r :: rs)) :
    scan r.did.val (later.map fun d => (d.val : ℤ)) (r.data ++ response rs) =
        .ok ((r :: rs).map Record.pair) ↔
      rs.map Record.did <+: later := by
  induction later generalizing r rs with
  | nil =>
    have hrs := List.map_eq_nil_iff.mp (List.sublist_nil.mp h.tail.sublist)
    have htail : r.data ++ response [] = r.data := List.append_nil _
    rw [hrs, htail]
    exact iff_of_true rfl List.nil_prefix
  | cons d later ih =>
    rw [List.map_cons]
    rcases h.tail.head_or_absent with ⟨s, rs, rfl, rfl⟩ | ⟨habsent, -⟩
    · have hfind := h.find_tail_some List.mem_cons_self
      have hpair : (⟨r.did.val, hex r.data⟩ : RdidDataTuple) = r.pair := rfl
      rw [List.map_cons, scan_some hfind, List.take_left, drop_record, ih h.tail, List.map_cons,
        List.cons_prefix_cons]
      exact and_congr (iff_of_true hpair rfl) Iff.rfl
    · rw [scan_none (h.find_tail_none List.mem_cons_self habsent)]
      cases rs with
      | nil =>
        have htail : r.data ++ response [] = r.data := List.append_nil _
        rw [htail]
        exact iff_of_true rfl List.nil_prefix
      | cons s rs =>
        refine iff_of_false (by simp) fun hprefix => habsent ?_
        rw [List.map_cons, List.cons_prefix_cons] at hprefix
        rw [List.map_cons, hprefix.1]
        exact List.mem_cons_self

theorem of_places (hnodup : dids.Nodup) (hsub : (records.map Record.did).Sublist dids)
    (h : ∀ d ∈ dids, ∀ k < (response records).length, At (didBytes d) (response records) k →
      ∃ i < records.length, (records[i]?).map Record.did = some d ∧
        k = (response (records.take i)).length) : Answers dids records := by
  refine ⟨hnodup, hsub, fun d hd k hk => ?_⟩
  have hle := hk.le
  rw [length_didBytes] at hle
  obtain ⟨i, hi, hdid, hpos⟩ := h d hd k (by omega) hk
  rw [List.getElem?_eq_getElem hi] at hdid
  refine ⟨records.take i, records[i], records.drop (i + 1), ?_, Option.some.inj hdid, hpos⟩
  rw [← List.drop_eq_getElem_cons hi, List.take_append_drop]

end Answers

/-- The identifiers answered begin the list, or begin it behind its first one, and
there is one among them unless at most one was asked for. -/
def Recognized (dids : List Did) (records : List Record) : Prop :=
  (records ≠ [] ∨ dids.length ≤ 1) ∧
    (records.map Record.did <+: dids ∨ records.map Record.did <+: dids.tail)

theorem scan_pairs_head {did : Did} {later : List ℤ} {tail : Bytes} {records : List Record}
    (h : scan did.val later tail = .ok (records.map Record.pair)) :
    ∃ r rs, records = r :: rs ∧ r.did = did := by
  obtain ⟨data, ts, hpairs⟩ := scan_head h
  obtain ⟨r, rs, rfl, hr, -⟩ := List.map_eq_cons_iff.mp hpairs
  refine ⟨r, rs, rfl, Fin.ext ?_⟩
  exact Int.ofNat_inj.mp (congrArg RdidDataTuple.did hr)

/-- The pairs of the records present, and no others, are returned exactly if the
identifiers that are missing do not lead the scan astray. -/
theorem splitDids_present_iff (dids : List Did) (records : List Record)
    (h : Answers dids records) :
    splitDids (requested dids) (response records) = .ok (records.map Record.pair) ↔
      Recognized dids records := by
  cases dids with
  | nil =>
    have hrecords := List.map_eq_nil_iff.mp (List.sublist_nil.mp h.sublist)
    rw [hrecords]
    exact iff_of_true rfl ⟨Or.inr (Nat.zero_le _), Or.inl List.nil_prefix⟩
  | cons d later =>
    have hdids := dids_requested (d :: later)
    rcases h.head_or_absent with ⟨r, rs, rfl, rfl⟩ | ⟨habsent, hsub⟩
    · have hfirst : find (didBytes r.did) (response (r :: rs)) = some 0 := by
        rw [response_cons]
        exact find_prefix _ _
      rw [splitDids_found hdids (toBytes_did r.did) hfirst, drop_response, h.scan_iff]
      have hsecond : ¬ r.did :: rs.map Record.did <+: later := fun hp =>
        (List.nodup_cons.mp h.nodup).1 (hp.subset List.mem_cons_self)
      simp [Recognized, hsecond]
    · have hnone := h.find_none List.mem_cons_self habsent
      cases later with
      | nil =>
        have hrecords := List.map_eq_nil_iff.mp (List.sublist_nil.mp hsub)
        rw [splitDids_single hdids (toBytes_did d) hnone, hrecords]
        exact iff_of_true rfl ⟨Or.inr le_rfl, Or.inl List.nil_prefix⟩
      | cons next later =>
        rw [splitDids_absent hdids (toBytes_did d) hnone]
        by_cases hnext : ∃ r rs, records = r :: rs ∧ r.did = next
        · obtain ⟨r, rs, rfl, rfl⟩ := hnext
          have hfirst : r.did ≠ d := fun he => habsent (he ▸ List.mem_cons_self)
          rw [drop_response, (h.skip hsub).scan_iff]
          simp [Recognized, hfirst]
        · refine iff_of_false (fun hscan => hnext (scan_pairs_head hscan)) ?_
          rintro ⟨hne | hlen, hprefix⟩
          · obtain ⟨r, rs, rfl⟩ := List.exists_cons_of_ne_nil hne
            simp only [List.map_cons, List.tail_cons, List.cons_prefix_cons] at hprefix
            rcases hprefix with ⟨rfl, -⟩ | ⟨rfl, -⟩
            · exact habsent List.mem_cons_self
            · exact hnext ⟨r, rs, rfl, rfl⟩
          · simp at hlen

/-- The test `test_split_dids_partly_not_found_first`, with data of one byte. -/
theorem splitDids_present_first_missing :
    Recognized [0x999, 0x123] [⟨0x123, [7]⟩] ∧
      splitDids (requested [0x999, 0x123]) [0x01, 0x23, 7] = .ok [⟨0x123, hex [7]⟩] := by
  have hrecognized : Recognized [0x999, 0x123] [⟨0x123, [7]⟩] := by
    refine ⟨.inl (by decide), .inr ?_⟩
    exact List.prefix_rfl
  exact ⟨hrecognized, (splitDids_present_iff [0x999, 0x123] [⟨0x123, [7]⟩]
    (.of_places (by decide) (by decide) (by
      simp only [List.forall_mem_cons, List.not_mem_nil, false_implies, implies_true, and_true]
      decide +kernel))).mpr hrecognized⟩

/-- The identifier 2 is missing between 1 and 3. -/
theorem record_behind_missing_lost :
    Answers [1, 2, 3] [⟨1, [0xAA]⟩, ⟨3, [0xBB]⟩] ∧
      splitDids (requested [1, 2, 3]) (response [⟨1, [0xAA]⟩, ⟨3, [0xBB]⟩]) =
        .ok [⟨1, hex [0xAA, 0, 3, 0xBB]⟩] ∧
      splitDids (requested [1, 2, 3]) (response [⟨1, [0xAA]⟩, ⟨3, [0xBB]⟩]) ≠
        .ok ([⟨1, [0xAA]⟩, ⟨3, [0xBB]⟩].map Record.pair) :=
  ⟨.of_places (by decide) (by decide) (by
      simp only [List.forall_mem_cons, List.not_mem_nil, false_implies, implies_true, and_true]
      decide +kernel), by decide +kernel, by decide +kernel⟩

end InVehicle.DidRecords
