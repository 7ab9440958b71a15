import InVehicle.Basic
import InVehicle.SortedLists
import InVehicle.TextCodecs

/-!
# SOME/IP service discovery

`SomeipUtils.find_service` on the datagrams that the socket receives, with the
parser of the service discovery layer as a parameter, and the options that an offer
refers to by index.
-/

set_option autoImplicit false

namespace InVehicle.SomeipDiscovery
open InVehicle.TextCodecs InVehicle.SortedLists

inductive SomeIpSdEntryType where
  | findService
  | offerService
  | other
  deriving DecidableEq, Repr

inductive SomeIpSdOptionType where
  | ipv4Endpoint
  | ipv6Endpoint
  | other
  deriving DecidableEq, Repr

inductive SomeIpSdProtocolType where
  | sdTcp
  | sdUdp
  deriving DecidableEq, Repr

inductive SomeIpMsgType where
  | errors
  | other
  deriving DecidableEq, Repr

inductive Layer4ProtocolType where
  | udp
  | tcp
  deriving DecidableEq, Repr

structure SomeIpSdEntry where
  type : SomeIpSdEntryType
  serviceId : ℕ
  instanceId : ℕ
  majorVersion : ℕ
  minorVersion : ℕ
  ttl : ℕ
  index1 : ℕ
  nOpt1 : ℕ
  index2 : ℕ
  nOpt2 : ℕ
  deriving DecidableEq, Repr

structure SomeIpSdOption where
  type : SomeIpSdOptionType
  addr : Text
  port : ℕ
  protocolType : SomeIpSdProtocolType
  deriving DecidableEq, Repr

structure SomeIpSdLayer where
  messageType : SomeIpMsgType
  returnCode : ℕ
  entries : List SomeIpSdEntry
  options : List SomeIpSdOption
  deriving DecidableEq, Repr

structure SomeipEndpointOption where
  endpointAddr : Text
  port : ℕ
  portType : Layer4ProtocolType
  deriving DecidableEq, Repr

structure SomeipServiceInfo where
  serviceId : ℕ
  instanceId : ℕ
  majorVer : ℕ
  minorVer : ℕ
  ttl : ℕ
  endpoints : List SomeipEndpointOption
  deriving DecidableEq, Repr

inductive DiscoveryError where
  | indexError
  deriving DecidableEq, Repr

/-! ## The options of an offer -/

def combinedOptionsIdx (sdEntry : SomeIpSdEntry) : List ℕ :=
  List.range' sdEntry.index1 sdEntry.nOpt1 ++ List.range' sdEntry.index2 sdEntry.nOpt2

def endpoints (sdOption : SomeIpSdOption) : List SomeipEndpointOption :=
  if sdOption.type ∈ [SomeIpSdOptionType.ipv4Endpoint, .ipv6Endpoint] then
    [{ endpointAddr := sdOption.addr
       port := sdOption.port
       portType := if sdOption.protocolType = .sdTcp then .tcp else .udp }]
  else []

def appendOptions (sdOptions : List SomeIpSdOption) :
    List ℕ → List SomeipEndpointOption → Except DiscoveryError (List SomeipEndpointOption)
  | [], eps => .ok eps
  | optIdx :: rest, eps =>
    if optIdx > sdOptions.length then .ok eps
    else
      match sdOptions[optIdx]? with
      | none => .error .indexError
      | some sdOption => appendOptions sdOptions rest (eps ++ endpoints sdOption)

def parseOptionsForOfferService (sdEntry : SomeIpSdEntry) (sdOptions : List SomeIpSdOption)
    (serviceInfo : SomeipServiceInfo) : Except DiscoveryError SomeipServiceInfo := do
  let eps ← appendOptions sdOptions ((combinedOptionsIdx sdEntry).insertionSort (· ≤ ·))
    serviceInfo.endpoints
  return { serviceInfo with endpoints := eps }

/-! ## Finding a service -/

def eUnknownService : ℕ := 0x02

def serviceInfo (entry : SomeIpSdEntry) : SomeipServiceInfo where
  serviceId := entry.serviceId
  instanceId := entry.instanceId
  majorVer := entry.majorVersion
  minorVer := entry.minorVersion
  ttl := entry.ttl
  endpoints := []

def parseEntries (options : List SomeIpSdOption) :
    List SomeIpSdEntry → List SomeipServiceInfo → Except DiscoveryError (List SomeipServiceInfo)
  | [], foundServices => .ok foundServices
  | entry :: entries, foundServices =>
    if entry.type ≠ .offerService then parseEntries options entries foundServices
    else do
      let info ← parseOptionsForOfferService entry options (serviceInfo entry)
      parseEntries options entries (foundServices ++ [info])

def parseFindServiceResponse (fromBytes : Bytes → Option SomeIpSdLayer) (recvData : Bytes)
    (foundServices : List SomeipServiceInfo) : Except DiscoveryError (List SomeipServiceInfo) :=
  match fromBytes recvData with
  | none => .ok foundServices
  | some layer =>
    if layer.messageType ≠ .errors ∧ layer.returnCode ≠ eUnknownService then
      if 0 < layer.entries.length ∧ 0 < layer.options.length then
        parseEntries layer.options layer.entries foundServices
      else .ok foundServices
    else .ok foundServices

/-- One `recv` for each retry, `none` where nothing was received. -/
def readResponses (fromBytes : Bytes → Option SomeIpSdLayer) :
    List (Option Bytes) → List SomeipServiceInfo → Except DiscoveryError (List SomeipServiceInfo)
  | [], foundServices => .ok foundServices
  | none :: recvs, foundServices => readResponses fromBytes recvs foundServices
  | some recvData :: recvs, foundServices => do
    let foundServices ← parseFindServiceResponse fromBytes recvData foundServices
    readResponses fromBytes recvs foundServices

def findServiceEntry (serviceId : ℕ) : SomeIpSdEntry where
  type := .findService
  serviceId := serviceId
  instanceId := 0xFFFF
  majorVersion := 0xFF
  minorVersion := 0xFFFFFFFF
  ttl := 0xFFFFFF
  index1 := 0
  nOpt1 := 0
  index2 := 0
  nOpt2 := 0

/-- `find_service`, together with the entries it sends. -/
def findService (fromBytes : Bytes → Option SomeIpSdLayer) (isUdp : Bool) (serviceId : ℕ)
    (recvs : List (Option Bytes)) :
    List SomeIpSdEntry × Except DiscoveryError (List SomeipServiceInfo) :=
  (if isUdp then [findServiceEntry serviceId] else [], readResponses fromBytes recvs [])

/-! ## What the indices refer to -/

/-- One of the two runs of indices refers to the option. -/
def Refers (sdEntry : SomeIpSdEntry) (i : ℕ) : Prop :=
  i ∈ List.range' sdEntry.index1 sdEntry.nOpt1 ∨ i ∈ List.range' sdEntry.index2 sdEntry.nOpt2

instance (sdEntry : SomeIpSdEntry) (i : ℕ) : Decidable (Refers sdEntry i) :=
  inferInstanceAs (Decidable (_ ∨ _))

def endpointsAt (sdOptions : List SomeIpSdOption) (i : ℕ) : List SomeipEndpointOption :=
  (sdOptions[i]?.map endpoints).getD []

def referred (sdEntry : SomeIpSdEntry) (sdOptions : List SomeIpSdOption) :
    List SomeipEndpointOption :=
  (List.range sdOptions.length).flatMap fun i =>
    if Refers sdEntry i then endpointsAt sdOptions i else []

/-- The call returns and appends what the entry refers to. -/
def Resolved (sdEntry : SomeIpSdEntry) (sdOptions : List SomeIpSdOption)
    (serviceInfo : SomeipServiceInfo) : Prop :=
  parseOptionsForOfferService sdEntry sdOptions serviceInfo =
    .ok { serviceInfo with endpoints := serviceInfo.endpoints ++ referred sdEntry sdOptions }

def TwiceReferred (sdEntry : SomeIpSdEntry) (sdOptions : List SomeIpSdOption) : Prop :=
  ∃ i, i ∈ List.range' sdEntry.index1 sdEntry.nOpt1 ∧
    i ∈ List.range' sdEntry.index2 sdEntry.nOpt2 ∧ endpointsAt sdOptions i ≠ []

section Options
variable (sdEntry : SomeIpSdEntry) (sdOptions : List SomeIpSdOption)

theorem endpointsAt_nil {i : ℕ} (h : sdOptions.length ≤ i) : endpointsAt sdOptions i = [] := by
  rw [endpointsAt, List.getElem?_eq_none h]
  rfl

theorem mem_combinedOptionsIdx_iff (i : ℕ) : i ∈ combinedOptionsIdx sdEntry ↔ Refers sdEntry i :=
  List.mem_append

theorem count_combinedOptionsIdx (i : ℕ) :
    (combinedOptionsIdx sdEntry).count i =
      (if i ∈ List.range' sdEntry.index1 sdEntry.nOpt1 then 1 else 0) +
        if i ∈ List.range' sdEntry.index2 sdEntry.nOpt2 then 1 else 0 := by
  rw [combinedOptionsIdx, List.count_append, (List.nodup_range' 1).count,
    (List.nodup_range' 1).count]

theorem appendOptions_sorted (idxs : List ℕ) (eps : List SomeipEndpointOption)
    (hsorted : idxs.Pairwise (· ≤ ·)) :
    appendOptions sdOptions idxs eps =
      if sdOptions.length ∈ idxs then .error .indexError
      else .ok (eps ++ (idxs.filter (· < sdOptions.length)).flatMap (endpointsAt sdOptions)) := by
  induction idxs generalizing eps with
  | nil => simp [appendOptions]
  | cons i idxs ih =>
    rw [List.pairwise_cons] at hsorted
    rw [appendOptions]
    rcases Nat.lt_trichotomy i sdOptions.length with hlt | heq | hgt
    · have hat : endpointsAt sdOptions i = endpoints sdOptions[i] := by
        rw [endpointsAt, List.getElem?_eq_getElem hlt]
        rfl
      have hnot : ¬ i > sdOptions.length := by omega
      have hne : sdOptions.length ≠ i := by omega
      rw [if_neg hnot, List.getElem?_eq_getElem hlt]
      simp only [ih _ hsorted.2, List.mem_cons, hne, false_or, List.filter_cons, hlt,
        decide_true, if_true, List.flatMap_cons, hat, List.append_assoc]
    · subst heq
      simp
    · have hbehind : sdOptions.length ∉ i :: idxs := by
        intro hmem
        rcases List.mem_cons.mp hmem with h | h
        · omega
        · exact absurd (hsorted.1 _ h) (by omega)
      have hfilter : (i :: idxs).filter (· < sdOptions.length) = [] := by
        rw [List.filter_eq_nil_iff]
        intro j hj
        rcases List.mem_cons.mp hj with rfl | h
        · simp; omega
        · have hle := hsorted.1 _ h
          simp; omega
      rw [if_pos hgt, if_neg hbehind, hfilter, List.flatMap_nil, List.append_nil]

theorem handled_eq_expand :
    ((combinedOptionsIdx sdEntry).insertionSort (· ≤ ·)).filter (· < sdOptions.length) =
      expand (fun i => (combinedOptionsIdx sdEntry).count i) sdOptions.length := by
  have hsorted := (List.pairwise_insertionSort (· ≤ ·) (combinedOptionsIdx sdEntry)).filter
    (· < sdOptions.length)
  rw [sorted_eq_expand sdOptions.length hsorted
    (fun i hi => by simpa using (List.mem_filter.mp hi).2)]
  apply expand_congr
  intro i hi
  rw [List.count_filter (by simpa using hi), (List.perm_insertionSort _ _).count_eq]

def appended : List SomeipEndpointOption :=
  (List.range sdOptions.length).flatMap fun i =>
    (List.replicate ((combinedOptionsIdx sdEntry).count i) i).flatMap (endpointsAt sdOptions)

theorem parseOptions_eq (serviceInfo : SomeipServiceInfo) :
    parseOptionsForOfferService sdEntry sdOptions serviceInfo =
      if Refers sdEntry sdOptions.length then .error .indexError
      else .ok { serviceInfo with
        endpoints := serviceInfo.endpoints ++ appended sdEntry sdOptions } := by
  have hmem : sdOptions.length ∈ (combinedOptionsIdx sdEntry).insertionSort (· ≤ ·) ↔
      Refers sdEntry sdOptions.length :=
    (List.mem_insertionSort _).trans (mem_combinedOptionsIdx_iff sdEntry _)
  rw [parseOptionsForOfferService, appendOptions_sorted sdOptions _ _
    (List.pairwise_insertionSort _ _), handled_eq_expand]
  by_cases h : Refers sdEntry sdOptions.length
  · rw [if_pos (hmem.mpr h), if_pos h]
    rfl
  · rw [if_neg (mt hmem.mp h), if_neg h, expand, List.flatMap_assoc]
    rfl

theorem length_repeated (n i : ℕ) :
    ((List.replicate n i).flatMap (endpointsAt sdOptions)).length =
      n * (endpointsAt sdOptions i).length := by
  induction n with
  | zero => simp
  | succ n ih => rw [List.replicate_succ, List.flatMap_cons, List.length_append, ih]; ring

theorem referred_length_le (i : ℕ) :
    (if Refers sdEntry i then endpointsAt sdOptions i else []).length ≤
      ((List.replicate ((combinedOptionsIdx sdEntry).count i) i).flatMap
        (endpointsAt sdOptions)).length := by
  rw [length_repeated]
  split_ifs with hi
  · have hpos := List.count_pos_iff.mpr ((mem_combinedOptionsIdx_iff sdEntry i).mpr hi)
    exact Nat.le_mul_of_pos_left _ hpos
  · exact Nat.zero_le _

theorem not_twiceReferred (h : appended sdEntry sdOptions = referred sdEntry sdOptions) :
    ¬ TwiceReferred sdEntry sdOptions := by
  rintro ⟨i, h1, h2, hi⟩
  have hlt : i < sdOptions.length := by
    by_contra hge
    exact hi (endpointsAt_nil sdOptions (Nat.le_of_not_lt hge))
  have hlength := length_eq_of_flatMap_eq (fun j _ => referred_length_le sdEntry sdOptions j) h i
    (List.mem_range.mpr hlt)
  rw [length_repeated, count_combinedOptionsIdx, if_pos h1, if_pos h2,
    if_pos (show Refers sdEntry i from .inl h1)] at hlength
  have hpos := List.length_pos_iff.mpr hi
  omega

theorem appended_eq_referred (h : ¬ TwiceReferred sdEntry sdOptions) :
    appended sdEntry sdOptions = referred sdEntry sdOptions := by
  apply List.flatMap_congr
  intro i _
  rw [count_combinedOptionsIdx]
  by_cases h1 : i ∈ List.range' sdEntry.index1 sdEntry.nOpt1
  · have hrefers : Refers sdEntry i := .inl h1
    by_cases h2 : i ∈ List.range' sdEntry.index2 sdEntry.nOpt2
    · have hnil : endpointsAt sdOptions i = [] := by
        by_contra hi
        exact h ⟨i, h1, h2, hi⟩
      simp [h1, h2, hnil]
    · simp [h1, h2, hrefers]
  · by_cases h2 : i ∈ List.range' sdEntry.index2 sdEntry.nOpt2
    · have hrefers : Refers sdEntry i := .inr h2
      simp [h1, h2, hrefers]
    · have hrefers : ¬ Refers sdEntry i := by
        rintro (h | h)
        · exact h1 h
        · exact h2 h
      simp [h1, h2, hrefers]

theorem appended_eq_referred_iff :
    appended sdEntry sdOptions = referred sdEntry sdOptions ↔
      ¬ TwiceReferred sdEntry sdOptions :=
  ⟨not_twiceReferred sdEntry sdOptions, appended_eq_referred sdEntry sdOptions⟩

theorem resolved_iff (serviceInfo : SomeipServiceInfo) :
    Resolved sdEntry sdOptions serviceInfo ↔
      ¬ Refers sdEntry sdOptions.length ∧ ¬ TwiceReferred sdEntry sdOptions := by
  rw [Resolved, parseOptions_eq, ← appended_eq_referred_iff]
  split_ifs with h
  · simp [h]
  · simp [h]

end Options

/-! ## Services of earlier datagrams -/

def Handled (layer : SomeIpSdLayer) : Prop :=
  layer.messageType ≠ .errors ∧ layer.returnCode ≠ eUnknownService ∧ layer.options ≠ []

def Offers (fromBytes : Bytes → Option SomeIpSdLayer) (recvData : Bytes) : Prop :=
  ∃ layer, fromBytes recvData = some layer ∧ Handled layer ∧
    ∃ entry ∈ layer.entries, entry.type = .offerService

/-- An offer in the datagram refers to the option right behind the last one. -/
def BadReference (fromBytes : Bytes → Option SomeIpSdLayer) (recvData : Bytes) : Prop :=
  ∃ layer, fromBytes recvData = some layer ∧ Handled layer ∧
    ∃ entry ∈ layer.entries, entry.type = .offerService ∧ Refers entry layer.options.length

/-- What earlier datagrams brought is in what the call returns. -/
def Kept (fromBytes : Bytes → Option SomeIpSdLayer) (isUdp : Bool) (serviceId : ℕ)
    (recvs : List (Option Bytes)) : Prop :=
  ∀ earlier later foundServices, recvs = earlier ++ later →
    (findService fromBytes isUdp serviceId earlier).2 = .ok foundServices → foundServices ≠ [] →
    ∃ all, (findService fromBytes isUdp serviceId recvs).2 = .ok all ∧ foundServices <+: all

/-- The first datagram with a bad reference has no offers in front of it. -/
def NoOfferLost (fromBytes : Bytes → Option SomeIpSdLayer) (recvs : List (Option Bytes)) : Prop :=
  ∀ earlier recvData later, recvs = earlier ++ some recvData :: later →
    BadReference fromBytes recvData → (∀ d, some d ∈ earlier → ¬ BadReference fromBytes d) →
    ∀ d, some d ∈ earlier → ¬ Offers fromBytes d

section Discovery
variable (fromBytes : Bytes → Option SomeIpSdLayer)

theorem parseOptions_ok {entry : SomeIpSdEntry} {options : List SomeIpSdOption}
    (info : SomeipServiceInfo) (h : ¬ Refers entry options.length) :
    ∃ info', parseOptionsForOfferService entry options info = .ok info' :=
  ⟨_, (parseOptions_eq entry options info).trans (if_neg h)⟩

theorem parseEntries_bad {options : List SomeIpSdOption} {entries : List SomeIpSdEntry}
    (foundServices : List SomeipServiceInfo)
    (h : ∃ entry ∈ entries, entry.type = .offerService ∧ Refers entry options.length) :
    parseEntries options entries foundServices = .error .indexError := by
  induction entries generalizing foundServices with
  | nil => simp at h
  | cons entry entries ih =>
    rw [List.exists_mem_cons_iff] at h
    rw [parseEntries]
    by_cases htype : entry.type = .offerService
    · rw [if_neg (not_not.mpr htype)]
      by_cases hrefers : Refers entry options.length
      · rw [parseOptions_eq, if_pos hrefers]
        rfl
      · obtain ⟨info, hinfo⟩ := parseOptions_ok (serviceInfo entry) hrefers
        rw [hinfo]
        exact ih _ (h.resolve_left fun h => hrefers h.2)
    · rw [if_pos htype]
      exact ih _ (h.resolve_left fun h => htype h.1)

theorem parseEntries_good {options : List SomeIpSdOption} {entries : List SomeIpSdEntry}
    (foundServices : List SomeipServiceInfo)
    (h : ∀ entry ∈ entries, entry.type = .offerService → ¬ Refers entry options.length) :
    ∃ services, parseEntries options entries foundServices = .ok (foundServices ++ services) ∧
      (services ≠ [] ↔ ∃ entry ∈ entries, entry.type = .offerService) := by
  induction entries generalizing foundServices with
  | nil => exact ⟨[], by rw [parseEntries, List.append_nil], by simp⟩
  | cons entry entries ih =>
    rw [List.forall_mem_cons] at h
    rw [parseEntries]
    by_cases htype : entry.type = .offerService
    · obtain ⟨info, hinfo⟩ := parseOptions_ok (serviceInfo entry) (h.1 htype)
      obtain ⟨services, hparse, -⟩ := ih (foundServices ++ [info]) h.2
      refine ⟨info :: services, ?_, ?_⟩
      · rw [if_neg (not_not.mpr htype), hinfo, List.append_cons]
        exact hparse
      · simp [htype]
    · rw [if_pos htype]
      obtain ⟨services, hparse, hservices⟩ := ih foundServices h.2
      refine ⟨services, hparse, ?_⟩
      simpa [htype] using hservices

theorem parseFindServiceResponse_handled {recvData : Bytes} {layer : SomeIpSdLayer}
    (foundServices : List SomeipServiceInfo) (hlayer : fromBytes recvData = some layer)
    (hhandled : Handled layer) :
    parseFindServiceResponse fromBytes recvData foundServices =
      parseEntries layer.options layer.entries foundServices := by
  obtain ⟨hmessage, hreturn, hoptions⟩ := hhandled
  rw [parseFindServiceResponse, hlayer]
  simp only
  rw [if_pos ⟨hmessage, hreturn⟩]
  cases hentries : layer.entries with
  | nil => rfl
  | cons entry entries =>
    rw [if_pos ⟨Nat.succ_pos _, List.length_pos_iff.mpr hoptions⟩]

theorem parseFindServiceResponse_unhandled {recvData : Bytes}
    (foundServices : List SomeipServiceInfo)
    (h : ¬ ∃ layer, fromBytes recvData = some layer ∧ Handled layer) :
    parseFindServiceResponse fromBytes recvData foundServices = .ok foundServices := by
  rw [parseFindServiceResponse]
  cases hlayer : fromBytes recvData with
  | none => rfl
  | some layer =>
    simp only
    split_ifs with hmessage hoptions
    · exact absurd ⟨layer, hlayer, hmessage.1, hmessage.2, List.length_pos_iff.mp hoptions.2⟩ h
    · rfl
    · rfl

theorem parseFindServiceResponse_bad {recvData : Bytes} (foundServices : List SomeipServiceInfo)
    (h : BadReference fromBytes recvData) :
    parseFindServiceResponse fromBytes recvData foundServices = .error .indexError := by
  obtain ⟨layer, hlayer, hhandled, h⟩ := h
  rw [parseFindServiceResponse_handled fromBytes foundServices hlayer hhandled]
  exact parseEntries_bad foundServices h

theorem parseFindServiceResponse_good {recvData : Bytes} (foundServices : List SomeipServiceInfo)
    (h : ¬ BadReference fromBytes recvData) :
    ∃ services, parseFindServiceResponse fromBytes recvData foundServices =
      .ok (foundServices ++ services) ∧ (services ≠ [] ↔ Offers fromBytes recvData) := by
  by_cases hh : ∃ layer, fromBytes recvData = some layer ∧ Handled layer
  · obtain ⟨layer, hlayer, hhandled⟩ := hh
    obtain ⟨services, hparse, hservices⟩ :=
      @parseEntries_good layer.options layer.entries foundServices
        fun entry hentry htype hrefers => h ⟨layer, hlayer, hhandled, entry, hentry, htype, hrefers⟩
    refine ⟨services, ?_, hservices.trans ?_⟩
    · rw [parseFindServiceResponse_handled fromBytes foundServices hlayer hhandled, hparse]
    · constructor
      · intro hentry
        exact ⟨layer, hlayer, hhandled, hentry⟩
      · rintro ⟨layer', hlayer', -, hentry⟩
        rw [hlayer] at hlayer'
        cases hlayer'
        exact hentry
  · refine ⟨[], ?_, ?_⟩
    · rw [List.append_nil, parseFindServiceResponse_unhandled fromBytes foundServices hh]
    · refine iff_of_false (not_not.mpr rfl) ?_
      rintro ⟨layer, hlayer, hhandled, -⟩
      exact hh ⟨layer, hlayer, hhandled⟩

theorem readResponses_append (earlier later : List (Option Bytes))
    (foundServices : List SomeipServiceInfo) :
    readResponses fromBytes (earlier ++ later) foundServices =
      readResponses fromBytes earlier foundServices >>= readResponses fromBytes later := by
  induction earlier generalizing foundServices with
  | nil => rfl
  | cons recv earlier ih =>
    cases recv with
    | none => exact ih foundServices
    | some recvData =>
      rw [List.cons_append, readResponses, readResponses]
      cases parseFindServiceResponse fromBytes recvData foundServices with
      | error e => rfl
      | ok services => exact ih services

theorem readResponses_good {recvs : List (Option Bytes)} (foundServices : List SomeipServiceInfo)
    (h : ∀ d, some d ∈ recvs → ¬ BadReference fromBytes d) :
    ∃ services, readResponses fromBytes recvs foundServices = .ok (foundServices ++ services) ∧
      (services ≠ [] ↔ ∃ d, some d ∈ recvs ∧ Offers fromBytes d) := by
  induction recvs generalizing foundServices with
  | nil => exact ⟨[], by rw [readResponses, List.append_nil], by simp⟩
  | cons recv recvs ih =>
    cases recv with
    | none =>
      obtain ⟨services, hread, hservices⟩ := ih foundServices fun d hd => h d (.tail _ hd)
      exact ⟨services, hread, hservices.trans (by simp)⟩
    | some recvData =>
      obtain ⟨first, hparse, hfirst⟩ :=
        parseFindServiceResponse_good fromBytes foundServices (h recvData (.head _))
      obtain ⟨services, hread, hservices⟩ :=
        ih (foundServices ++ first) fun d hd => h d (.tail _ hd)
      refine ⟨first ++ services, ?_, ?_⟩
      · rw [readResponses, hparse, ← List.append_assoc]
        exact hread
      · rw [ne_eq, List.append_eq_nil_iff, not_and_or, ← ne_eq, ← ne_eq, hfirst, hservices]
        simp [or_and_right, exists_or]

theorem readResponses_ok_iff (recvs : List (Option Bytes)) :
    (∃ services, readResponses fromBytes recvs [] = .ok services) ↔
      ∀ d, some d ∈ recvs → ¬ BadReference fromBytes d := by
  constructor
  · rintro ⟨services, h⟩ d hd hbad
    obtain ⟨earlier, later, rfl⟩ := List.append_of_mem hd
    rw [readResponses_append] at h
    cases hearlier : readResponses fromBytes earlier [] with
    | error e => simp [hearlier, bind, Except.bind] at h
    | ok found =>
      simp [hearlier, bind, Except.bind, readResponses,
        parseFindServiceResponse_bad fromBytes found hbad] at h
  · intro h
    obtain ⟨services, hread, -⟩ := readResponses_good fromBytes [] h
    exact ⟨services, hread⟩

theorem exists_first_bad {recvs : List (Option Bytes)} {d : Bytes} (hd : some d ∈ recvs)
    (hbad : BadReference fromBytes d) :
    ∃ before d' after, recvs = before ++ some d' :: after ∧ BadReference fromBytes d' ∧
      ∀ d, some d ∈ before → ¬ BadReference fromBytes d := by
  induction recvs with
  | nil => cases hd
  | cons recv recvs ih =>
    by_cases hrecv : ∃ d', recv = some d' ∧ BadReference fromBytes d'
    · obtain ⟨d', rfl, hd'⟩ := hrecv
      exact ⟨[], d', recvs, rfl, hd', by simp⟩
    · have hmem : some d ∈ recvs := by
        refine (List.mem_cons.mp hd).resolve_left fun h => hrecv ⟨d, h.symm, hbad⟩
      obtain ⟨before, d', after, rfl, hd', hbefore⟩ := ih hmem
      refine ⟨recv :: before, d', after, rfl, hd', ?_⟩
      intro b hb
      rcases List.mem_cons.mp hb with h | h
      · exact fun hbad => hrecv ⟨b, h.symm, hbad⟩
      · exact hbefore b h

theorem kept_iff (isUdp : Bool) (serviceId : ℕ) (recvs : List (Option Bytes)) :
    Kept fromBytes isUdp serviceId recvs ↔ NoOfferLost fromBytes recvs := by
  constructor
  · intro h earlier recvData later hrecvs hbad hgood d hd hoffers
    obtain ⟨services, hread, hservices⟩ := readResponses_good fromBytes [] hgood
    obtain ⟨all, hall, -⟩ := h earlier _ services hrecvs hread (hservices.mpr ⟨d, hd, hoffers⟩)
    have hnone := (readResponses_ok_iff fromBytes recvs).mp ⟨all, hall⟩
    exact hnone recvData (by simp [hrecvs]) hbad
  · intro h earlier later foundServices hrecvs hfound hne
    have hgood := (readResponses_ok_iff fromBytes earlier).mp ⟨foundServices, hfound⟩
    obtain ⟨services, hread, hservices⟩ := readResponses_good fromBytes [] hgood
    have hfound : readResponses fromBytes earlier [] = .ok foundServices := hfound
    rw [hread, Except.ok.injEq, List.nil_append] at hfound
    subst hfound
    obtain ⟨d, hd, hoffers⟩ := hservices.mp hne
    -- A bad reference behind them would be the first one, with an offer in front of it.
    have hlater : ∀ d, some d ∈ later → ¬ BadReference fromBytes d := by
      intro d' hd' hbad
      obtain ⟨before, first, after, rfl, hfirst, hbefore⟩ :=
        exists_first_bad fromBytes hd' hbad
      refine h (earlier ++ before) first after (by rw [hrecvs, List.append_assoc]) hfirst ?_ d
        (List.mem_append_left before hd) hoffers
      intro b hb
      exact (List.mem_append.mp hb).elim (hgood b) (hbefore b)
    obtain ⟨rest, hrest, -⟩ := readResponses_good fromBytes services hlater
    refine ⟨services ++ rest, ?_, List.prefix_append services rest⟩
    show readResponses fromBytes recvs [] = _
    rw [hrecvs, readResponses_append, hread]
    exact hrest

end Discovery

/-- The options are resolved exactly if no run reaches the index behind the last option
and the runs share no endpoint, and found services are kept exactly if no bad reference
comes behind an offer. -/
theorem discovery_iff (sdEntry : SomeIpSdEntry) (sdOptions : List SomeIpSdOption)
    (serviceInfo : SomeipServiceInfo) (fromBytes : Bytes → Option SomeIpSdLayer) (isUdp : Bool)
    (serviceId : ℕ) (recvs : List (Option Bytes)) :
    (Resolved sdEntry sdOptions serviceInfo ∧ Kept fromBytes isUdp serviceId recvs) ↔
      (¬ Refers sdEntry sdOptions.length ∧ ¬ TwiceReferred sdEntry sdOptions) ∧
        NoOfferLost fromBytes recvs := by
  rw [resolved_iff, kept_iff]

/-! ## An offer with one option -/

/-- The bytes of an offer, with the two numbers of options in `nOpts`. -/
def offerBytes (nOpts : UInt8) : Bytes :=
  [0xff, 0xff, 0x81, 0x00, 0x00, 0x00, 0x00, 0x30, 0x00, 0x00, 0x00, 0x01, 0x01, 0x01, 0x02, 0x00,
    0xc0, 0x00, 0x00, 0x00, 0x00, 0x00, 0x00, 0x10, 0x01, 0x00, 0x00, nOpts, 0xb0, 0xa7, 0x00,
    0x01, 0x01, 0x00, 0x00, 0x03, 0x00, 0x00, 0x00, 0x00, 0x00, 0x00, 0x00, 0x0c, 0x00, 0x09,
    0x04, 0x00, 0x7f, 0x00, 0x00, 0x01, 0x00, 0x11, 0x04, 0x57]

def offerEntry (nOpt1 : ℕ) : SomeIpSdEntry where
  type := .offerService
  serviceId := 0xb0a7
  instanceId := 1
  majorVersion := 1
  minorVersion := 0
  ttl := 3
  index1 := 0
  nOpt1 := nOpt1
  index2 := 0
  nOpt2 := 0

def offerOption : SomeIpSdOption where
  type := .ipv4Endpoint
  addr := "127.0.0.1".toList
  port := 1111
  protocolType := .sdUdp

def offerLayer (nOpt1 : ℕ) : SomeIpSdLayer where
  messageType := .other
  returnCode := 0
  entries := [offerEntry nOpt1]
  options := [offerOption]

def offerFromBytes (recvData : Bytes) : Option SomeIpSdLayer :=
  if recvData = offerBytes 0x10 then some (offerLayer 1)
  else if recvData = offerBytes 0x20 then some (offerLayer 2)
  else none

example : (findService offerFromBytes true 0xb0a7 [some (offerBytes 0x10)]).2 =
    .ok [{ serviceInfo (offerEntry 1) with endpoints := endpoints offerOption }] := by
  decide +kernel

/-- Two options are referred to where there is one: the call raises, and the service of the
datagram before is lost. -/
theorem second_option_missing :
    ¬ Resolved (offerEntry 2) [offerOption] (serviceInfo (offerEntry 2)) ∧
    ¬ Kept offerFromBytes true 0xb0a7 [some (offerBytes 0x10), some (offerBytes 0x20)] := by
  have hgood : offerFromBytes (offerBytes 0x10) = some (offerLayer 1) := by decide +kernel
  have hbad : offerFromBytes (offerBytes 0x20) = some (offerLayer 2) := by decide +kernel
  have hhandled : ∀ n, Handled (offerLayer n) := fun n =>
    ⟨by simp [offerLayer], by simp [offerLayer, eUnknownService], List.cons_ne_nil _ _⟩
  rw [resolved_iff, kept_iff]
  refine ⟨fun h => h.1 (by decide), fun h => ?_⟩
  refine h [some (offerBytes 0x10)] (offerBytes 0x20) [] rfl
    ⟨offerLayer 2, hbad, hhandled 2, offerEntry 2, .head _, rfl, by decide⟩ ?_
    (offerBytes 0x10) (.head _) ⟨offerLayer 1, hgood, hhandled 1, offerEntry 1, .head _, rfl⟩
  intro d hd
  obtain rfl : d = offerBytes 0x10 := Option.some.inj (List.mem_singleton.mp hd)
  rintro ⟨layer, hlayer, -, entry, hentry, -, hrefers⟩
  rw [hgood] at hlayer
  cases hlayer
  obtain rfl : entry = offerEntry 1 := List.mem_singleton.mp hentry
  exact absurd hrefers (by decide)

end InVehicle.SomeipDiscovery
