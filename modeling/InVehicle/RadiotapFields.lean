import InVehicle.AlignedFields
import InVehicle.Basic
import InVehicle.Dicts
import InVehicle.Words
import Mathlib.Data.Rat.Init
import Mathlib.Tactic.NormNum.OfScientific

/-!
# The fields of a radiotap header

Each field has its alignment, its size and the dictionary that is made of its bytes.
The tables of rates are those of the vendored parser, in MBit/s.
-/

set_option autoImplicit false

namespace InVehicle.RadiotapFields
open InVehicle.AlignedFields InVehicle.Words

inductive ParseError where
  | structError
  | indexError
  | keyError
  | typeError
  deriving DecidableEq, Repr

/-! ## Dictionaries -/

structure VhtDescription where
  vhtMcsIndex : ℕ
  vhtMcsDescr : String × String
  vhtRateMbps : Option ℚ
  deriving DecidableEq

structure VhtUser where
  vhtCoding : ℕ
  description : Option VhtDescription
  deriving DecidableEq

inductive Value where
  | number (n : ℕ)
  | signed (n : ℤ)
  | real (q : ℚ)
  | bytes (b : Bytes)
  | missing
  | users (us : List (ℕ × VhtUser))
  deriving DecidableEq

inductive Key where
  | text (s : String)
  | bytes (b : Bytes)
  deriving DecidableEq

abbrev Dictionary := List (Key × Value)

def setItem (d : Dictionary) (entry : Key × Value) : Dictionary :=
  Dicts.put entry.1 entry.2 d

def entry (d : Dictionary) (k : Key) : Option Value := d.lookup k

/-! ## Bytes of the packet -/

/-- The bytes that `struct.unpack_from` takes at an offset. -/
def unpackFrom (size : ℕ) (packet : Bytes) (offset : ℕ) : Except ParseError Bytes :=
  if offset + size ≤ packet.length then .ok ((packet.drop offset).take size)
  else .error .structError

def unsigned (bs : Bytes) (i size : ℕ) : ℕ := byte.ofLe ((bs.drop i).take size)

def signed (bs : Bytes) : ℤ :=
  let n := unsigned bs 0 1
  if n < 128 then n else n - 256

structure FieldParser where
  alignment : ℕ
  aligned : alignment.isPowerOfTwo
  size : ℕ
  size_pos : 0 < size
  names : List String
  read : Bytes → Except ParseError Dictionary
  keys : ∀ {bs fields}, read bs = .ok fields → fields.map Prod.fst = names.map Key.text

def FieldParser.parse (p : FieldParser) (packet : Bytes) (offset : ℕ) :
    Except ParseError (ℕ × Dictionary) := do
  let offset := align offset p.alignment
  let bs ← unpackFrom p.size packet offset
  let fields ← p.read bs
  return (offset + p.size, fields)

def plainField (size alignment : ℕ) (aligned : alignment.isPowerOfTwo) (size_pos : 0 < size)
    (entries : List (String × (Bytes → Value))) : FieldParser where
  alignment := alignment
  aligned := aligned
  size := size
  size_pos := size_pos
  names := entries.map Prod.fst
  read bs := .ok (entries.map fun e => (.text e.1, e.2 bs))
  keys := by
    rintro bs _ ⟨⟩
    simp only [List.map_map]
    rfl

def numberField (size alignment : ℕ) (aligned : alignment.isPowerOfTwo) (size_pos : 0 < size)
    (name : String) : FieldParser :=
  plainField size alignment aligned size_pos [(name, fun bs => .number (byte.ofLe bs))]

def byteField (name : String) : FieldParser := numberField 1 1 ⟨0, rfl⟩ Nat.one_pos name

def wordField (name : String) : FieldParser := numberField 2 2 isPowerOfTwo_two Nat.two_pos name

def signedField (name : String) : FieldParser :=
  plainField 1 1 ⟨0, rfl⟩ Nat.one_pos [(name, fun bs => .signed (signed bs))]

def parseMactime : FieldParser := numberField 8 8 ⟨3, rfl⟩ (by decide) "TSFT"
def parseFlags : FieldParser := byteField "flags"

def parseRate : FieldParser :=
  plainField 1 1 ⟨0, rfl⟩ Nat.one_pos [("rate", fun bs => .real (byte.ofLe bs / 2 : ℚ))]

def parseChannel : FieldParser :=
  plainField 4 2 isPowerOfTwo_two (by decide)
    [("chan_freq", fun bs => .number (unsigned bs 0 2)),
      ("chan_flags", fun bs => .number (unsigned bs 2 2))]

def parseFhss : FieldParser := numberField 2 1 ⟨0, rfl⟩ Nat.two_pos "fhss"

def parseDbmAntsignal : FieldParser := signedField "dbm_antsignal"
def parseDbmAntnoise : FieldParser := signedField "dbm_antnoise"
def parseLockQuality : FieldParser := wordField "lock_quality"
def parseTxAttenuation : FieldParser := wordField "tx_attenuation"
def parseDbTxAttenuation : FieldParser := wordField "db_tx_attenuation"
def parseDbmTxPower : FieldParser := signedField "dbm_tx_power"
def parseAntenna : FieldParser := byteField "antenna"
def parseDbAntsignal : FieldParser := byteField "db_antsignal"
def parseDbAntnoise : FieldParser := byteField "db_antnoise"
def parseRxFlags : FieldParser := wordField "rx_flags"
def parseTxFlags : FieldParser := byteField "tx_flags"
def parseRtsRetries : FieldParser := byteField "rts_retries"
def parseDataRetries : FieldParser := byteField "data_retries"

def parseXchannel : FieldParser :=
  plainField 8 4 ⟨2, rfl⟩ (by decide)
    [("xchannel_flags", fun bs => .number (unsigned bs 0 4)),
      ("xchannel_freq", fun bs => .number (unsigned bs 4 2)),
      ("xchannel_num", fun bs => .number (unsigned bs 6 1)),
      ("xchannel_maxpower", fun bs => .number (unsigned bs 7 1))]

/-! ## MCS -/

def mcsRateTable : List (List ℚ) :=
  [
    [6.50, 7.20, 13.50, 15.00],
    [13.00, 14.40, 27.00, 30.00],
    [19.50, 21.70, 40.50, 45.00],
    [26.00, 28.90, 54.00, 60.00],
    [39.00, 43.30, 81.00, 90.00],
    [52.00, 57.80, 108.00, 120.00],
    [58.50, 65.00, 121.50, 135.00],
    [65.00, 72.20, 135.00, 150.00],
    [13.00, 14.40, 27.00, 30.00],
    [26.00, 28.90, 54.00, 60.00],
    [39.00, 43.30, 81.00, 90.00],
    [52.00, 57.80, 108.00, 120.00],
    [78.00, 86.70, 162.00, 180.00],
    [104.00, 115.60, 216.00, 240.00],
    [117.00, 130.00, 243.00, 270.00],
    [130.00, 144.40, 270.00, 300.00],
    [19.50, 21.70, 40.50, 45.00],
    [39.00, 43.30, 81.00, 90.00],
    [58.50, 65.00, 121.50, 135.00],
    [78.00, 86.70, 162.00, 180.00],
    [117.00, 130.00, 243.00, 270.00],
    [156.00, 173.30, 324.00, 360.00],
    [175.50, 195.00, 364.50, 405.00],
    [195.00, 216.70, 405.00, 450.00],
    [26.00, 28.80, 54.00, 60.00],
    [52.00, 57.60, 108.00, 120.00],
    [78.00, 86.80, 162.00, 180.00],
    [104.00, 115.60, 216.00, 240.00],
    [156.00, 173.20, 324.00, 360.00],
    [208.00, 231.20, 432.00, 480.00],
    [234.00, 260.00, 486.00, 540.00],
    [260.00, 288.80, 540.00, 600.00]
  ]

def readMcs (bs : Bytes) : Except ParseError Dictionary :=
  let mcsFlags := unsigned bs 1 1
  let mcsIndex := unsigned bs 2 1
  let is40 := if mcsFlags &&& 0x3 = 1 then 1 else 0
  let shortGi := if mcsFlags &&& 0x04 ≠ 0 then 1 else 0
  match (mcsRateTable[mcsIndex]?).bind fun row => row[2 * is40 + shortGi]? with
  | none => .error .indexError
  | some mcsRate => .ok [(.text "mcs_known", .number (unsigned bs 0 1)),
      (.text "mcs_flags", .number mcsFlags), (.text "mcs_index", .number mcsIndex),
      (.text "mcs_rate", .real mcsRate)]

def parseMcs : FieldParser where
  alignment := 1
  aligned := ⟨0, rfl⟩
  size := 3
  size_pos := by decide
  names := ["mcs_known", "mcs_flags", "mcs_index", "mcs_rate"]
  read := readMcs
  keys := by
    intro bs fields h
    simp only [readMcs] at h
    split at h
    · cases h
    · cases h
      rfl

/-- The format has no padding, and the offset is not aligned. -/
def parseAmpdu : FieldParser :=
  plainField 8 1 ⟨0, rfl⟩ (by decide)
    [("ampdu_refnum", fun bs => .number (unsigned bs 0 4)),
      ("ampdu_flags", fun bs => .number (unsigned bs 4 2)),
      ("ampdu_delim_crc_val", fun bs => .number (unsigned bs 6 1)),
      ("ampdu_reserved", fun bs => .number (unsigned bs 7 1))]

/-! ## VHT -/

def rates : List ℚ → List (Option ℚ) := List.map some

def unused (n : ℕ) : List (Option ℚ) := List.replicate n none

def vhtRateTable : List (List (Option ℚ)) :=
  [
    rates [6.5, 7.2, 13.5, 15.0, 29.3, 32.5, 58.5, 65.0],
    rates [13.0, 14.4, 27.0, 30.0, 58.5, 65.0, 117.0, 130.0],
    rates [19.5, 21.7, 40.5, 45.0, 87.8, 97.5, 175.5, 195.0],
    rates [26.0, 28.9, 54.0, 60.0, 117.0, 130.0, 234.0, 260.0],
    rates [39.0, 43.3, 81.0, 90.0, 175.5, 195.0, 351.0, 390.0],
    rates [52.0, 57.8, 108.0, 120.0, 234.0, 260.0, 468.0, 520.0],
    rates [58.5, 65.0, 121.5, 135.0, 263.3, 292.5, 526.5, 585.0],
    rates [65.0, 72.2, 135.0, 150.0, 292.5, 325.0, 585.0, 650.0],
    rates [78.0, 86.7, 162.0, 180.0, 351.0, 390.0, 702.0, 780.0],
    unused 2 ++ rates [180.0, 200.0, 390.0, 433.3, 780.0, 866.7],
    rates [13.0, 14.4, 27.0, 30.0, 58.5, 65.0, 117.0, 130.0],
    rates [26.0, 28.9, 54.0, 60.0, 117.0, 130.0, 234.0, 260.0],
    rates [39.0, 43.3, 81.0, 90.0, 175.5, 195.0, 351.0, 390.0],
    rates [52.0, 57.8, 108.0, 120.0, 234.0, 260.0, 468.0, 520.0],
    rates [78.0, 86.7, 162.0, 180.0, 351.0, 390.0, 702.0, 780.0],
    rates [104.0, 115.6, 216.0, 240.0, 468.0, 520.0, 936.0, 1040.0],
    rates [117.0, 130.3, 243.0, 270.0, 526.5, 585.0, 1053.0, 1170.0],
    rates [130.0, 144.4, 270.0, 300.0, 585.0, 650.0, 1170.0, 1300.0],
    rates [156.0, 173.3, 324.0, 360.0, 702.0, 780.0, 1404.0, 1560.0],
    unused 2 ++ rates [360.0, 400.0, 780.0, 866.7, 1560.0, 1733.3],
    rates [19.5, 21.7, 40.5, 45.0, 87.8, 97.5, 175.5, 195.0],
    rates [39.0, 43.3, 81.0, 90.0, 175.5, 195.0, 351.0, 390.0],
    rates [58.5, 65.0, 121.5, 135.0, 263.3, 292.5, 526.5, 585.0],
    rates [78.0, 86.7, 162.0, 180.0, 351.0, 390.0, 702.0, 780.0],
    rates [117.0, 130.0, 243.0, 270.0, 526.5, 585.0, 1053.0, 1170.0],
    rates [156.0, 173.3, 324.0, 360.0, 702.0, 780.0, 1404.0, 1560.0],
    rates [175.5, 195.0, 364.5, 405.0] ++ unused 2 ++ rates [1579.5, 1755.0],
    rates [195.0, 216.7, 405.0, 450.0, 877.5, 975.0, 1755.0, 1950.0],
    rates [234.0, 260.0, 486.0, 540.0, 1053.0, 1170.0, 2106.0, 2340.0],
    rates [260.0, 288.9, 540.0, 600.0, 1170.0, 1300.0] ++ unused 2,
    rates [26.0, 28.9, 54.0, 60.0, 117.0, 130.0, 234.0, 260.0],
    rates [52.0, 57.8, 108.0, 120.0, 234.0, 260.0, 468.0, 520.0],
    rates [78.0, 86.7, 162.0, 180.0, 351.0, 390.0, 702.0, 780.0],
    rates [104.0, 115.6, 216.0, 240.0, 468.0, 520.0, 936.0, 1040.0],
    rates [156.0, 173.3, 324.0, 360.0, 702.0, 780.0, 1404.0, 1560.0],
    rates [208.0, 231.1, 432.0, 480.0, 936.0, 1040.0, 1872.0, 2080.0],
    rates [234.0, 260.0, 486.0, 540.0, 1053.0, 1170.0, 2106.0, 2340.0],
    rates [260.0, 288.9, 540.0, 600.0, 1170.0, 1300.0, 2340.0, 2600.0],
    rates [312.0, 346.7, 648.0, 720.0, 1404.0, 1560.0, 2808.0, 3120.0],
    unused 2 ++ rates [720.0, 800.0, 1560.0, 1733.3, 3120.0, 3466.7],
    unused 4 ++ rates [146.3, 162.5, 292.5, 325.0],
    unused 4 ++ rates [292.5, 325.0, 585.0, 650.0],
    unused 4 ++ rates [438.8, 487.5, 877.5, 975.0],
    unused 4 ++ rates [585.0, 650.0, 1170.0, 1300.0],
    unused 4 ++ rates [877.5, 975.0, 1755.0, 1950.0],
    unused 4 ++ rates [1170.0, 1300.0, 2340.0, 2600.0],
    unused 4 ++ rates [1316.3, 1462.5, 2632.5, 2925.0],
    unused 4 ++ rates [1462.5, 1625.0, 2925.0, 3250.0],
    unused 4 ++ rates [1755.0, 1950.0, 3510.0, 3900.0],
    unused 4 ++ rates [1950.0, 2166.7, 3900.0, 4333.3],
    unused 4 ++ rates [175.5, 195.0, 351.0, 390.0],
    unused 4 ++ rates [351.0, 390.0, 702.0, 780.0],
    unused 4 ++ rates [526.5, 585.0, 1053.0, 1170.0],
    unused 4 ++ rates [702.0, 780.0, 1404.0, 1560.0],
    unused 4 ++ rates [1053.0, 1170.0, 2106.0, 2340.0],
    unused 4 ++ rates [1404.0, 1560.0, 2808.0, 3120.0],
    unused 4 ++ rates [1579.5, 1755.0, 3159.0, 3510.0],
    unused 4 ++ rates [1755.0, 1950.0, 3510.0, 3900.0],
    unused 4 ++ rates [2106.0, 2340.0, 4212.0, 4680.0],
    unused 6 ++ rates [4680.0, 5200.0],
    unused 4 ++ rates [204.8, 227.5, 409.5, 455.0],
    unused 4 ++ rates [409.5, 455.0, 819.0, 910.0],
    unused 4 ++ rates [614.3, 682.5, 1228.5, 1365.0],
    unused 4 ++ rates [819.0, 910.0, 1638.0, 1820.0],
    unused 4 ++ rates [1228.5, 1365.0, 2457.0, 2730.0],
    unused 4 ++ rates [1638.0, 1820.0, 3276.0, 3640.0],
    unused 6 ++ rates [3685.5, 4095.0],
    unused 4 ++ rates [2047.5, 2275.0, 4095.0, 4550.0],
    unused 4 ++ rates [2457.0, 2730.0, 4914.0, 5460.0],
    unused 4 ++ rates [2730.0, 3033.3, 5460.0, 6066.7],
    unused 4 ++ rates [234.0, 260.0, 468.0, 520.0],
    unused 4 ++ rates [468.0, 520.0, 936.0, 1040.0],
    unused 4 ++ rates [702.0, 780.0, 1404.0, 1560.0],
    unused 4 ++ rates [936.0, 1040.0, 1872.0, 2080.0],
    unused 4 ++ rates [1404.0, 1560.0, 2808.0, 3120.0],
    unused 4 ++ rates [1872.0, 2080.0, 3744.0, 4160.0],
    unused 4 ++ rates [2106.0, 2340.0, 4212.0, 4680.0],
    unused 4 ++ rates [2340.0, 2600.0, 4680.0, 5200.0],
    unused 4 ++ rates [2808.0, 3120.0, 5616.0, 6240.0],
    unused 4 ++ rates [3120.0, 3466.7, 6240.0, 6933.3]
  ]

/-- The first entries of `vht_bandwidth_lut`. -/
def vhtBandwidthLut : List ℕ :=
  [20, 40, 40, 40, 80, 80, 80, 80, 80, 80, 80, 160, 160, 160, 160, 160, 160, 160, 160, 160, 160, 160, 160, 160, 160, 160]

/-- `xs[i]`, where a negative index counts from the end. -/
def getItem {α : Type} (xs : List α) (i : ℤ) : Except ParseError α :=
  let i := if i < 0 then i + xs.length else i
  if i < 0 then .error .indexError
  else match xs[i.toNat]? with
    | some x => .ok x
    | none => .error .indexError

def columnOffsetByBwMHz : List (ℕ × ℕ) := [(20, 0), (40, 2), (80, 4), (160, 6)]

def mcsByVhtIndex : List (String × String) :=
  [("BPSK", "1/2"), ("QPSK", "1/2"), ("QPSK", "3/2"), ("16QAM", "1/2"), ("16QAM", "3/4"),
    ("64QAM", "2/3"), ("64QAM", "3/4"), ("64QAM", "5/6"), ("256QAM", "3/4"), ("256QAM", "5/6")]

def calculateRowIndex (vhtIndex nss : ℕ) : ℤ := vhtIndex + (nss - 1) * 10

def vhtRate (vhtMcsIndex nss gi bandwidthMHz : ℕ) : Except ParseError (Option ℚ) :=
  match columnOffsetByBwMHz.lookup bandwidthMHz with
  | none => .error .keyError
  | some column => do
    let row ← getItem vhtRateTable (calculateRowIndex vhtMcsIndex nss)
    getItem row (column + gi)

def vhtRateDescription (vhtMcsIndex nss gi bandwidthMHz : ℕ) :
    Except ParseError VhtDescription :=
  match mcsByVhtIndex[vhtMcsIndex]? with
  | none => .error .keyError
  | some vhtMcsDescr => do
    let vhtRateMbps ← vhtRate vhtMcsIndex nss gi bandwidthMHz
    return ⟨vhtMcsIndex, vhtMcsDescr, vhtRateMbps⟩

def vhtUser (vhtGi vhtBandwidth : Option ℕ) (vhtCoding i user : ℕ) :
    Except ParseError VhtUser := do
  -- The shift binds tighter than the mask, so that the streams are the low bits.
  let vhtNss := user &&& (0xf0 >>> 4)
  let vhtMcsIndex := (user &&& 0xf0) >>> 4
  let description ← match vhtGi, vhtBandwidth with
    | some gi, some bandwidth => some <$> vhtRateDescription vhtMcsIndex vhtNss gi bandwidth
    | _, _ => pure none
  return ⟨(vhtCoding &&& 2 ^ i) >>> i, description⟩

def vhtPerUser (vhtGi vhtBandwidth : Option ℕ) (vhtCoding : ℕ) :
    ℕ → List ℕ → Except ParseError (List (ℕ × VhtUser))
  | _, [] => .ok []
  | i, 0 :: users => vhtPerUser vhtGi vhtBandwidth vhtCoding (i + 1) users
  | i, user :: users => do
    let u ← vhtUser vhtGi vhtBandwidth vhtCoding i user
    let us ← vhtPerUser vhtGi vhtBandwidth vhtCoding (i + 1) users
    return (i, u) :: us

def Value.ofOption : Option ℕ → Value
  | none => .missing
  | some n => .number n

def vhtUsers (bs : Bytes) : List ℕ := (List.range 4).map fun i => unsigned bs (4 + i) 1

def vhtGi (bs : Bytes) : Option ℕ :=
  if unsigned bs 0 2 &&& 0x0004 ≠ 0 then some ((unsigned bs 2 1 &&& 0x04) >>> 0x02) else none

def vhtBandwidth (bs : Bytes) : Except ParseError (Option ℕ) :=
  if unsigned bs 0 2 &&& 0x0040 ≠ 0 then
    match vhtBandwidthLut[0x1f &&& unsigned bs 3 1]? with
    | none => .error .indexError
    | some bandwidth => .ok (some bandwidth)
  else .ok none

def readVht (bs : Bytes) : Except ParseError Dictionary := do
  let vhtCoding := unsigned bs 8 1
  let vhtBandwidth ← vhtBandwidth bs
  let vhtUser ← vhtPerUser (vhtGi bs) vhtBandwidth vhtCoding 0 (vhtUsers bs)
  return [(.text "vht_known", .number (unsigned bs 0 2)),
    (.text "vht_flags", .number (unsigned bs 2 1)), (.text "vht_bw", .number (unsigned bs 3 1)),
    (.text "vht_coding", .number vhtCoding), (.text "vht_group_id", .number (unsigned bs 9 1)),
    (.text "vht_gi", .ofOption (vhtGi bs)), (.text "vht_bandwidth", .ofOption vhtBandwidth),
    (.text "vht_user", .users vhtUser)]

def parseVht : FieldParser where
  alignment := 1
  aligned := ⟨0, rfl⟩
  size := 12
  size_pos := by decide
  names := ["vht_known", "vht_flags", "vht_bw", "vht_coding", "vht_group_id", "vht_gi",
    "vht_bandwidth", "vht_user"]
  read := readVht
  keys := by
    intro bs fields h
    simp only [readVht, except_bind_eq_ok] at h
    obtain ⟨_, -, _, -, h⟩ := h
    cases h
    rfl

def dispatchTable : List FieldParser :=
  [parseMactime, parseFlags, parseRate, parseChannel, parseFhss, parseDbmAntsignal,
    parseDbmAntnoise, parseLockQuality, parseTxAttenuation, parseDbTxAttenuation,
    parseDbmTxPower, parseAntenna, parseDbAntsignal, parseDbAntnoise, parseRxFlags,
    parseTxFlags, parseRtsRetries, parseDataRetries, parseXchannel, parseMcs, parseAmpdu,
    parseVht]

section Parsers

variable (p : FieldParser) (packet : Bytes) (offset : ℕ)

theorem unpackFrom_eq_ok {size : ℕ} {packet : Bytes} {offset : ℕ} {bs : Bytes} :
    unpackFrom size packet offset = .ok bs ↔
      offset + size ≤ packet.length ∧ (packet.drop offset).take size = bs := by
  rw [unpackFrom]
  split <;> simp [*]

theorem FieldParser.parse_eq_ok {next : ℕ} {fields : Dictionary} :
    p.parse packet offset = .ok (next, fields) ↔
      align offset p.alignment + p.size ≤ packet.length ∧
        p.read ((packet.drop (align offset p.alignment)).take p.size) = .ok fields ∧
          next = align offset p.alignment + p.size := by
  simp only [FieldParser.parse, except_bind_eq_ok, unpackFrom_eq_ok, pure, Except.pure,
    Except.ok.injEq, Prod.mk.injEq]
  constructor
  · rintro ⟨_, ⟨hlength, rfl⟩, _, hread, rfl, rfl⟩
    exact ⟨hlength, hread, rfl⟩
  · rintro ⟨hlength, hread, rfl⟩
    exact ⟨_, ⟨hlength, rfl⟩, _, hread, rfl, rfl⟩

theorem FieldParser.parse_returns_iff :
    (∃ r, p.parse packet offset = .ok r) ↔
      align offset p.alignment + p.size ≤ packet.length ∧
        ∃ fields, p.read ((packet.drop (align offset p.alignment)).take p.size) = .ok fields := by
  simp only [Prod.exists, FieldParser.parse_eq_ok]
  constructor
  · rintro ⟨_, fields, hlength, hread, -⟩
    exact ⟨hlength, fields, hread⟩
  · rintro ⟨hlength, fields, hread⟩
    exact ⟨_, fields, hlength, hread, rfl⟩

end Parsers

/-! ## When a VHT field is read -/

theorem unsigned_lt (bs : Bytes) (i size : ℕ) : unsigned bs i size < 256 ^ size := by
  have h : unsigned bs i size < 256 ^ ((bs.drop i).take size).length := byte.ofLe_lt _
  exact Nat.lt_of_lt_of_le h (Nat.pow_le_pow_right (by decide) (List.length_take_le ..))

theorem getItem_returns_iff {α : Type} (xs : List α) (i : ℤ) :
    (∃ x, getItem xs i = .ok x) ↔ -xs.length ≤ i ∧ i < xs.length := by
  simp only [getItem]
  generalize hj : (if i < 0 then i + xs.length else i) = j
  have hrange : (-xs.length ≤ i ∧ i < xs.length) ↔ 0 ≤ j ∧ j < xs.length := by
    split at hj <;> omega
  rw [hrange]
  by_cases hneg : j < 0
  · rw [if_pos hneg]
    simp
    omega
  · rw [if_neg hneg]
    cases h : xs[j.toNat]? with
    | none =>
      rw [List.getElem?_eq_none_iff] at h
      simp
      omega
    | some x =>
      have hlt := (List.getElem?_eq_some_iff.mp h).1
      simp
      omega

theorem getItem_mem {α : Type} {xs : List α} {i : ℤ} {x : α} (h : getItem xs i = .ok x) :
    x ∈ xs := by
  simp only [getItem] at h
  generalize (if i < 0 then i + xs.length else i) = j at h
  by_cases hneg : j < 0
  · rw [if_pos hneg] at h
    cases h
  · rw [if_neg hneg] at h
    cases hx : xs[j.toNat]? with
    | none => simp [hx] at h
    | some y =>
      simp only [hx, Except.ok.injEq] at h
      exact h ▸ List.mem_of_getElem? hx

theorem vhtRate_returns_iff {vhtMcsIndex nss gi bandwidthMHz : ℕ} (hindex : vhtMcsIndex < 10)
    (hgi : gi ≤ 1) (hbandwidth : bandwidthMHz ∈ vhtBandwidthLut) :
    (∃ r, vhtRate vhtMcsIndex nss gi bandwidthMHz = .ok r) ↔ nss ≤ 8 := by
  have hcolumns : ∀ b ∈ vhtBandwidthLut, ∃ c ≤ 6, columnOffsetByBwMHz.lookup b = some c := by
    decide
  obtain ⟨column, hcolumn, hlookup⟩ := hcolumns _ hbandwidth
  have hlength : vhtRateTable.length = 80 := rfl
  have hrow : (∃ row, getItem vhtRateTable (calculateRowIndex vhtMcsIndex nss) = .ok row) ↔
      nss ≤ 8 := by
    rw [getItem_returns_iff, hlength, calculateRowIndex]
    omega
  have hall : ∀ row ∈ vhtRateTable, row.length = 8 := by decide
  simp only [vhtRate, hlookup]
  rw [except_bind_returns_iff, ← hrow]
  refine exists_congr fun row => and_iff_left_of_imp fun h => ?_
  rw [getItem_returns_iff, hall row (getItem_mem h)]
  omega

theorem vhtRateDescription_returns_iff {vhtMcsIndex nss gi bandwidthMHz : ℕ} (hgi : gi ≤ 1)
    (hbandwidth : bandwidthMHz ∈ vhtBandwidthLut) :
    (∃ d, vhtRateDescription vhtMcsIndex nss gi bandwidthMHz = .ok d) ↔
      vhtMcsIndex < 10 ∧ nss ≤ 8 := by
  have hlength : mcsByVhtIndex.length = 10 := rfl
  rw [vhtRateDescription]
  by_cases hindex : vhtMcsIndex < 10
  · rw [List.getElem?_eq_getElem (hlength ▸ hindex)]
    simp only [except_bind_returns_iff]
    rw [← vhtRate_returns_iff hindex hgi hbandwidth, and_iff_right hindex]
    exact exists_congr fun r => and_iff_left ⟨_, rfl⟩
  · rw [List.getElem?_eq_none (by omega)]
    simp [hindex]

/-- What a user of the field may ask for once guard interval and bandwidth are known. -/
def UserReadable (user : ℕ) : Prop := user ≠ 0 → user / 16 < 10 ∧ user % 16 ≤ 8

instance : DecidablePred UserReadable := fun _ => inferInstanceAs (Decidable (_ → _))

theorem nibbles {user : ℕ} (h : user < 256) :
    (user &&& 0xf0) >>> 4 = user / 16 ∧ user &&& (0xf0 >>> 4) = user % 16 := by
  rw [Nat.shiftRight_and_distrib, Nat.shiftRight_eq_div_pow]
  have hhigh : user / 2 ^ 4 &&& 2 ^ 4 - 1 = user / 2 ^ 4 % 2 ^ 4 :=
    Nat.and_two_pow_sub_one_eq_mod _ 4
  have hlow : user &&& 2 ^ 4 - 1 = user % 2 ^ 4 := Nat.and_two_pow_sub_one_eq_mod _ 4
  exact ⟨hhigh.trans (Nat.mod_eq_of_lt (by omega)), hlow⟩

section Users

variable {gi bandwidth : Option ℕ} (hgi : ∀ g ∈ gi, g ≤ 1)
  (hbandwidth : ∀ b ∈ bandwidth, b ∈ vhtBandwidthLut) (vhtCoding : ℕ)
include hgi hbandwidth

theorem vhtUser_returns_iff (i : ℕ) {user : ℕ} (huser : user < 256) :
    (∃ u, vhtUser gi bandwidth vhtCoding i user = .ok u) ↔
      (gi.isSome → bandwidth.isSome → user / 16 < 10 ∧ user % 16 ≤ 8) := by
  obtain ⟨hindex, hnss⟩ := nibbles huser
  simp only [vhtUser, hindex, hnss]
  cases gi with
  | none => simp [pure, Except.pure, bind, Except.bind]
  | some g =>
    cases bandwidth with
    | none => simp [pure, Except.pure, bind, Except.bind]
    | some b =>
      rw [← vhtRateDescription_returns_iff (hgi g rfl) (hbandwidth b rfl), except_bind_returns_iff]
      cases vhtRateDescription (user / 16) (user % 16) g b <;>
        simp [pure, Except.pure, Functor.map, Except.map]

theorem vhtPerUser_returns_iff (i : ℕ) (users : List ℕ) (husers : ∀ user ∈ users, user < 256) :
    (∃ us, vhtPerUser gi bandwidth vhtCoding i users = .ok us) ↔
      (gi.isSome → bandwidth.isSome → ∀ user ∈ users, UserReadable user) := by
  induction users generalizing i with
  | nil => simp [vhtPerUser]
  | cons user users ih =>
    have hrest := ih (i + 1) fun user hmem => husers user (List.mem_cons_of_mem _ hmem)
    have hfirst := vhtUser_returns_iff hgi hbandwidth vhtCoding i (husers user List.mem_cons_self)
    cases user with
    | zero =>
      rw [vhtPerUser, hrest]
      simp [UserReadable]
    | succ n =>
      rw [vhtPerUser, except_bind_returns_iff]
      · simp only [except_bind_returns_iff, pure, Except.pure, Except.ok.injEq, exists_eq',
          and_true, exists_and_right, hfirst, hrest, UserReadable, List.forall_mem_cons, ne_eq,
          Nat.add_eq_zero_iff, Nat.one_ne_zero, and_false, not_false_eq_true, forall_const]
        tauto
      · simp

end Users

/-- The contents of which the VHT parser makes a dictionary. -/
def VhtReadable (bs : Bytes) : Prop :=
  (unsigned bs 0 2 &&& 0x0040 ≠ 0 → 0x1f &&& unsigned bs 3 1 < 26) ∧
    (unsigned bs 0 2 &&& 0x0004 ≠ 0 → unsigned bs 0 2 &&& 0x0040 ≠ 0 →
      ∀ user ∈ vhtUsers bs, UserReadable user)

theorem readVht_returns_iff (bs : Bytes) :
    (∃ d, readVht bs = .ok d) ↔ VhtReadable bs := by
  have husers : ∀ user ∈ vhtUsers bs, user < 256 := by
    intro user huser
    obtain ⟨i, -, rfl⟩ := List.mem_map.mp huser
    exact unsigned_lt bs (4 + i) 1
  have hgi : ∀ g ∈ vhtGi bs, g ≤ 1 := by
    intro g hg
    have hbit : ∀ n : ℕ, (n &&& 0x04) >>> 0x02 ≤ 1 := by
      intro n
      have h : n &&& 0x04 ≤ 0x04 := Nat.and_le_right
      rw [Nat.shiftRight_eq_div_pow]
      omega
    rw [vhtGi] at hg
    split at hg
    · cases hg
      exact hbit _
    · cases hg
  have hisSome : (vhtGi bs).isSome = true ↔ unsigned bs 0 2 &&& 0x0004 ≠ 0 := by
    rw [vhtGi]
    split <;> simp_all
  have hlength : vhtBandwidthLut.length = 26 := rfl
  have hread : ∀ bandwidth : Option ℕ, (∀ b ∈ bandwidth, b ∈ vhtBandwidthLut) →
      ((∃ us, vhtPerUser (vhtGi bs) bandwidth (unsigned bs 8 1) 0 (vhtUsers bs) = .ok us) ↔
        (unsigned bs 0 2 &&& 0x0004 ≠ 0 → bandwidth.isSome →
          ∀ user ∈ vhtUsers bs, UserReadable user)) := by
    intro bandwidth hbandwidth
    rw [vhtPerUser_returns_iff hgi hbandwidth _ 0 _ husers, hisSome]
  simp only [readVht, except_bind_returns_iff, pure, Except.pure, Except.ok.injEq, exists_eq',
    and_true, VhtReadable, vhtBandwidth]
  by_cases hknown : unsigned bs 0 2 &&& 0x0040 ≠ 0
  · rw [if_pos hknown]
    by_cases hbw : 0x1f &&& unsigned bs 3 1 < 26
    · rw [List.getElem?_eq_getElem (hlength ▸ hbw)]
      simp only [Except.ok.injEq, exists_eq_left']
      rw [hread _ (by rintro b ⟨rfl⟩; exact List.getElem_mem _)]
      simp [hknown, hbw]
    · rw [List.getElem?_eq_none (by omega)]
      simp [hknown, hbw]
  · rw [if_neg hknown]
    simp only [Except.ok.injEq, exists_eq_left']
    rw [hread none (by simp)]
    simp [hknown]

theorem vht_parsed_iff (packet : Bytes) (offset : ℕ) :
    (∃ r, parseVht.parse packet offset = .ok r) ↔
      offset + 12 ≤ packet.length ∧ VhtReadable ((packet.drop offset).take 12) := by
  have halign : align offset parseVht.alignment = offset := align_one
  have hsize : parseVht.size = 12 := rfl
  rw [FieldParser.parse_returns_iff, halign, hsize]
  exact and_congr_right fun _ => readVht_returns_iff _

end InVehicle.RadiotapFields
