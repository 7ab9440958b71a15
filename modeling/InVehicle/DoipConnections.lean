import InVehicle.Dicts
import InVehicle.DoipSession
import InVehicle.TextCodecs

/-!
# The TCP connections of the DoIP utilities

`DoipUtils` keeps one TCP communicator for each pair of addresses and makes a new one
where the old one is not open any more. A communicator that is not referenced any more
is kept in `dropped`, so that a connection that nobody can close can be told.
-/

set_option autoImplicit false

namespace InVehicle.DoipConnections
open InVehicle.Effect InVehicle.Dicts InVehicle.DoipMessages InVehicle.TcpSocket
  InVehicle.DoipSession InVehicle.TextCodecs

structure Utils (Msg : Type) where
  inSocket : Bool
  outSocket : Bool
  tcpCommunicatorsCache : Dict Text (World Msg)
  made : ℕ
  dropped : List (World Msg)

def Utils.fresh (Msg : Type) : Utils Msg := ⟨false, false, .empty, 0, []⟩

/-- What opening the raw socket meets: the sending socket is made and takes its options,
and the sniffing one is made. -/
structure RawEnv where
  made : Bool
  bound : Bool
  sniffer : Bool
  deriving DecidableEq, Repr

/-- What the cached communicator answers, `is_open` being asked twice before it is closed,
and what opening a new one meets. -/
structure GetEnv where
  peek : Peek
  again : Peek
  closing : CloseEnv
  opening : OpenEnv
  deriving DecidableEq, Repr

structure Request where
  clientLogicalAddress : ℕ
  timeout : ℚ
  activationType : ℕ
  protocolVersion : ℕ

structure Exchange where
  activation : ExchangeEnv
  unsent : CloseEnv

/-- `f"{str(source_address)}_{str(target_address)}"` -/
def cacheKey (sourceAddress targetAddress : Text) : Text := sourceAddress ++ '_' :: targetAddress

variable {Msg : Type}

abbrev Doip (Msg α : Type) : Type := Prog (Utils Msg) PyError α

section Code

variable (c : DoipClient Msg)

def systemCall (ok : Bool) (f : Utils Msg → Utils Msg) : Doip Msg Unit :=
  if ok then Prog.modify f else Prog.raise .osError

def rawOpen (env : RawEnv) : Doip Msg Bool := do
  systemCall env.made fun s => { s with outSocket := true }
  systemCall env.bound id
  systemCall env.sniffer fun s => { s with inSocket := true }
  return true

def rawClose : Doip Msg Bool := fun s =>
  let t := { s with inSocket := false }
  if s.outSocket then (.ok true, t) else (.error .attributeError, t)

def within {α : Type} (key : Text) (m : Tcp Msg α) : Doip Msg α := fun s =>
  match s.tcpCommunicatorsCache.get? key with
  | none => (.error .attributeError, s)
  | some w =>
    ((m w).1, { s with tcpCommunicatorsCache := s.tcpCommunicatorsCache.set key (m w).2 })

def openAndConnect (env : OpenEnv) : Tcp Msg Bool := do
  let _ ← tcpOpen env
  tcpConnect env

/-- A new communicator. If it cannot be connected, nothing refers to it any more. -/
def newCommunicator (env : OpenEnv) : Doip Msg (World Msg) := fun s =>
  match openAndConnect env (⟨none, s.made, []⟩ : World Msg) with
  | (.ok _, w) => (.ok w, { s with made := w.made })
  | (.error e, w) => (.error e, { s with made := w.made, dropped := s.dropped ++ [w] })

def store (key : Text) (w : World Msg) : Doip Msg Unit := Prog.modify fun s =>
  { s with
    tcpCommunicatorsCache := s.tcpCommunicatorsCache.set key w
    dropped := s.dropped ++ (s.tcpCommunicatorsCache.get? key).toList }

def renew (key : Text) (env : OpenEnv) : Doip Msg Bool := do
  let w ← newCommunicator env
  store key w
  return false

/-- The result tells whether the communicator was in the cache. It is there afterwards. -/
def getTcpCommunicator (key : Text) (env : GetEnv) : Doip Msg Bool := do
  let s ← Prog.get
  match s.tcpCommunicatorsCache.get? key with
  | some w =>
    if tcpIsOpen env.peek w then return true
    else do
      if !tcpIsOpen env.again w then
        let _ ← within key (tcpClose env.closing)
      renew key env.opening
  | none => renew key env.opening

def initiateRoutingActivationReqBound (r : Request) (env : Exchange) : Tcp Msg (Option Msg) := do
  let data := c.packDoip r.protocolVersion
    (c.routingActivationRequest r.clientLogicalAddress r.activationType)
  let bytesSent ← tcpSend data env.activation.accepted
  if bytesSent = 0 then
    let _ ← tcpClose env.unsent
    return none
  let response ← readDoip c r.timeout env.activation.clock
  match response with
  | some m => if c.type m = .routingActivationResponse then return some m else return none
  | none => return none

def initiateRoutingActivationReq (sourceAddress targetAddress : Text) (r : Request)
    (getting : GetEnv) (env : Exchange) : Doip Msg (Option Msg) := do
  let _ ← getTcpCommunicator (cacheKey sourceAddress targetAddress) getting
  within (cacheKey sourceAddress targetAddress) (initiateRoutingActivationReqBound c r env)

def setup (env : RawEnv) : Doip Msg Bool := do
  let opened ← rawOpen env
  if !opened then return false
  return true

def closeAll (closing : Text → CloseEnv) : List Text → Doip Msg Unit
  | [] => pure ()
  | key :: keys => do
    let _ ← within key (tcpClose (closing key))
    closeAll closing keys

def teardown (closing : Text → CloseEnv) : Doip Msg Bool := do
  let _ ← rawClose
  let s ← Prog.get
  closeAll closing s.tcpCommunicatorsCache.keys
  return true

inductive Call where
  | setup (env : RawEnv)
  | activate (sourceAddress targetAddress : Text) (r : Request) (getting : GetEnv)
      (env : Exchange)
  | teardown (closing : Text → CloseEnv)

/-- The state behind a call, returned from or raised out of. -/
def step (s : Utils Msg) : Call → Utils Msg
  | .setup env => (setup env s).2
  | .activate sourceAddress targetAddress r getting env =>
    (initiateRoutingActivationReq c sourceAddress targetAddress r getting env s).2
  | .teardown closing => (teardown closing s).2

def run (calls : List Call) : Utils Msg := calls.foldl (step c) (Utils.fresh Msg)

theorem initiateRoutingActivationReqBound_default (clientLogicalAddress : ℕ) (timeout : ℚ)
    (env : Exchange) :
    initiateRoutingActivationReqBound c
        ⟨clientLogicalAddress, timeout, activationTypeDefault, protocolVersion⟩ env =
      DoipSession.initiateRoutingActivationReqBound c clientLogicalAddress timeout
        env.activation env.unsent := rfl

end Code

/-! ## One communicator -/

def Attached (conn : ℕ) (w : World Msg) : Prop :=
  ∃ phase reads, w.socket = some ⟨conn, phase, reads⟩ ∧ phase ≠ .bound

def Connected (conn : ℕ) (w : World Msg) : Prop :=
  ∃ reads, w.socket = some ⟨conn, .connected, reads⟩

def Live (w : World Msg) : Prop := ∃ conn, Connected conn w

theorem Connected.attached {conn : ℕ} {w : World Msg} (h : Connected conn w) :
    Attached conn w := by
  obtain ⟨reads, hsocket⟩ := h
  exact ⟨.connected, reads, hsocket, by decide⟩

theorem Attached.conn_eq {conn conn' : ℕ} {w : World Msg} (h : Attached conn w)
    (h' : Attached conn' w) : conn = conn' := by
  obtain ⟨phase, reads, hsocket, -⟩ := h
  obtain ⟨phase', reads', hsocket', -⟩ := h'
  rw [hsocket] at hsocket'
  cases hsocket'
  rfl

/-- `is_open` of a connected socket. -/
def shows : Peek → Bool
  | .data b => !b.isEmpty
  | .wouldBlock => true
  | .timedOut => true
  | .reset => false
  | .otherError => false

theorem tcpIsOpen_iff (peek : Peek) (w : World Msg) :
    tcpIsOpen peek w = true ↔ Live w ∧ shows peek = true := by
  constructor
  · intro h
    obtain ⟨conn, reads, hsocket⟩ := tcpIsOpen_connected peek w h
    refine ⟨⟨conn, reads, hsocket⟩, ?_⟩
    rw [tcpIsOpen, hsocket] at h
    cases peek <;> exact h
  · rintro ⟨⟨conn, reads, hsocket⟩, h⟩
    rw [tcpIsOpen, hsocket]
    cases peek <;> exact h

/-- The connection is open and cannot be shut down. -/
def Jammed (env : CloseEnv) (w : World Msg) : Prop :=
  tcpIsOpen env.peek w = true ∧ env.shutdown = false

theorem tcpClose_run (env : CloseEnv) {w : World Msg} {conn : ℕ} {phase : Phase}
    {reads : List SockRecv} (hsocket : w.socket = some ⟨conn, phase, reads⟩) :
    ¬ Jammed env w ∧
        tcpClose env w = (.ok true, { w with socket := some ⟨conn, .closed, reads⟩ }) ∨
      Jammed env w ∧ tcpClose env w = (.error .osError, w) := by
  have hget : (Prog.get : Tcp Msg (World Msg)) w = (.ok w, w) := rfl
  have hclose : (do closeSocket; return true : Tcp Msg Bool) w =
      (.ok true, { w with socket := some ⟨conn, .closed, reads⟩ }) := by
    have hrun : closeSocket w = (.ok (), { w with socket := some ⟨conn, .closed, reads⟩ }) := by
      rw [closeSocket, hsocket]
    rw [bind_ok hrun]
    rfl
  rw [tcpClose, bind_ok hget]
  by_cases hopen : tcpIsOpen env.peek w = true
  · rw [if_pos hopen]
    cases hshutdown : env.shutdown with
    | true =>
      refine .inl ⟨fun h => ?_, hclose⟩
      exact Bool.noConfusion (hshutdown.symm.trans h.2)
    | false => exact .inr ⟨⟨hopen, hshutdown⟩, rfl⟩
  · rw [if_neg hopen]
    exact .inl ⟨fun h => hopen h.1, hclose⟩

theorem tcpClose_attached {conn : ℕ} (env : CloseEnv) :
    Ensures (Attached conn) (tcpClose env : Tcp Msg Bool)
      (fun _ w => Attached conn w ∧ ¬ Live w) (fun _ => Attached conn) := by
  intro w hw
  obtain ⟨phase, reads, hsocket, hphase⟩ := hw
  rcases tcpClose_run env hsocket with ⟨-, hrun⟩ | ⟨-, hrun⟩
  · rw [hrun]
    refine ⟨⟨.closed, reads, rfl, by decide⟩, ?_⟩
    rintro ⟨conn', reads', h⟩
    cases h
  · rw [hrun]
    exact ⟨phase, reads, hsocket, hphase⟩

theorem openAndConnect_start (env : OpenEnv) (n : ℕ) :
    openAndConnect env (⟨none, n, []⟩ : World Msg) =
      if env.bind = true ∧ env.connect = true then
        (.ok true, ⟨some ⟨n, .connected, env.reads⟩, n + 1, []⟩)
      else (.error .osError, ⟨some ⟨n, .bound, []⟩, n + 1, []⟩) := by
  obtain ⟨bind, connect, reads⟩ := env
  cases bind <;> cases connect <;> rfl

/-- The message was read behind the request, on the same connection. -/
def Answered (c : DoipClient Msg) (r : Request) (conn : ℕ) (log : List (Event Msg)) (m : Msg)
    (w : World Msg) : Prop :=
  c.type m = .routingActivationResponse ∧ Connected conn w ∧
    ∃ n, 0 < n ∧ w.log = .received conn m :: .sent conn (c.packDoip r.protocolVersion
      (c.routingActivationRequest r.clientLogicalAddress r.activationType)) n :: log

theorem readDoip_connected (c : DoipClient Msg) (timeout : ℚ) (clock : ℕ → ℚ) {conn : ℕ}
    {log : List (Event Msg)} :
    Ensures (fun w => Connected conn w ∧ w.log = log) (readDoip c timeout clock)
      (fun r w => Connected conn w ∧ ∀ m, r = some m → w.log = .received conn m :: log)
      (fun _ => Connected conn) := by
  rintro w ⟨⟨reads, hsocket⟩, hlog⟩
  simp only [readDoip, hsocket]
  rcases DoipReader.readDoip c timeout clock reads with ⟨e | _ | m, rest⟩
  · exact ⟨rest, rfl⟩
  · exact ⟨⟨rest, rfl⟩, fun _ hm => (by cases hm)⟩
  · refine ⟨⟨rest, rfl⟩, ?_⟩
    rintro _ ⟨rfl⟩
    exact congrArg _ hlog

theorem initiateRoutingActivationReqBound_connected (c : DoipClient Msg) (r : Request)
    (env : Exchange) {conn : ℕ} {log : List (Event Msg)} :
    Ensures (fun w => Connected conn w ∧ w.log = log) (initiateRoutingActivationReqBound c r env)
      (fun o w => Attached conn w ∧ ∀ m, o = some m → Answered c r conn log m w)
      (fun _ => Attached conn) := by
  have hsend : Ensures (fun w => Connected conn w ∧ w.log = log)
      (tcpSend (c.packDoip r.protocolVersion
        (c.routingActivationRequest r.clientLogicalAddress r.activationType))
        env.activation.accepted)
      (fun n w => Connected conn w ∧ (n ≠ 0 → w.log = .sent conn (c.packDoip r.protocolVersion
        (c.routingActivationRequest r.clientLogicalAddress r.activationType)) n :: log))
      (fun _ => Attached conn) := by
    rintro w ⟨⟨reads, hsocket⟩, hlog⟩
    cases haccepted : env.activation.accepted with
    | none =>
      simp only [tcpSend, hsocket]
      exact ⟨⟨reads, hsocket⟩, fun h => absurd rfl h⟩
    | some n =>
      rw [tcpSend_connected _ n conn reads w hsocket]
      exact ⟨⟨reads, hsocket⟩, fun _ => congrArg _ hlog⟩
  refine ensures_bind hsend fun bytesSent => ensures_ite (fun _ => ?_) fun hbytes => ?_
  · refine ensures_bind (ensures_pre (tcpClose_attached env.unsent) fun _ h => h.1.attached)
      fun _ => ensures_pure fun w h => ⟨h.1, fun _ hm => (by cases hm)⟩
  · have hread := ensures_weaken (readDoip_connected c r.timeout env.activation.clock)
      (A := fun w => Connected conn w ∧ (bytesSent ≠ 0 → w.log = .sent conn
        (c.packDoip r.protocolVersion
          (c.routingActivationRequest r.clientLogicalAddress r.activationType)) bytesSent :: log))
      (fun _ h => ⟨h.1, h.2 hbytes⟩) (fun _ _ h => h) fun _ _ h => h.attached
    refine ensures_bind hread fun response => ?_
    cases response with
    | none => exact ensures_pure fun w h => ⟨h.1.attached, fun _ hm => (by cases hm)⟩
    | some m =>
      refine ensures_ite (fun htype => ensures_pure fun w h => ⟨h.1.attached, ?_⟩)
        fun _ => ensures_pure fun w h => ⟨h.1.attached, fun _ hm => (by cases hm)⟩
      rintro _ ⟨rfl⟩
      exact ⟨htype, h.1, bytesSent, Nat.pos_of_ne_zero hbytes, h.2 m rfl⟩

/-! ## The cache -/

/-- Each cached communicator has had a connection of its own. -/
structure Inv (s : Utils Msg) : Prop where
  attached : ∀ key w, s.tcpCommunicatorsCache.get? key = some w →
    ∃ conn < s.made, Attached conn w
  apart : ∀ key key' w w' conn, s.tcpCommunicatorsCache.get? key = some w →
    s.tcpCommunicatorsCache.get? key' = some w' → Attached conn w → Attached conn w' →
    key = key'

def Clean (s : Utils Msg) : Prop := ∀ w ∈ s.dropped, ¬ Live w

/-- The connection is seen closed first, and open when it is asked for again. -/
def GetEnv.Flaps (env : GetEnv) : Prop := shows env.peek = false ∧ shows env.again = true

def Sound (flapped : Prop) (s : Utils Msg) : Prop := Inv s ∧ (Clean s ∨ flapped)

theorem Sound.mono {F G : Prop} {s : Utils Msg} (h : Sound F s) (hFG : F → G) : Sound G s :=
  ⟨h.1, h.2.imp_right hFG⟩

theorem inv_fresh : Inv (Utils.fresh Msg) where
  attached _ _ h := by cases h
  apart _ _ _ _ _ h := by cases h

theorem Inv.of_set {s t : Utils Msg} (h : Inv s) {key : Text} {w : World Msg} {conn : ℕ}
    (hcache : t.tcpCommunicatorsCache = s.tcpCommunicatorsCache.set key w)
    (hmade : s.made ≤ t.made) (hw : Attached conn w) (hlt : conn < t.made)
    (hother : ∀ key' w', key' ≠ key → s.tcpCommunicatorsCache.get? key' = some w' →
      ¬ Attached conn w') : Inv t where
  attached key' w' hget := by
    rw [hcache, Dict.get?_set] at hget
    by_cases hk : key' = key
    · rw [if_pos hk] at hget
      cases hget
      exact ⟨conn, hlt, hw⟩
    · rw [if_neg hk] at hget
      obtain ⟨conn', hconn', hattached⟩ := h.attached key' w' hget
      exact ⟨conn', hconn'.trans_le hmade, hattached⟩
  apart k k' v v' conn' hv hv' hattached hattached' := by
    rw [hcache, Dict.get?_set] at hv hv'
    by_cases hk : k = key
    · rw [if_pos hk] at hv
      cases hv
      by_cases hk' : k' = key
      · rw [hk, hk']
      · rw [if_neg hk'] at hv'
        rw [← hw.conn_eq hattached] at hattached'
        exact absurd hattached' (hother k' v' hk' hv')
    · rw [if_neg hk] at hv
      by_cases hk' : k' = key
      · rw [if_pos hk'] at hv'
        cases hv'
        rw [← hw.conn_eq hattached'] at hattached
        exact absurd hattached (hother k v hk hv)
      · rw [if_neg hk'] at hv'
        exact h.apart k k' v v' conn' hv hv' hattached hattached'

theorem Inv.of_eq {s t : Utils Msg} (h : Inv s)
    (hcache : t.tcpCommunicatorsCache = s.tcpCommunicatorsCache) (hmade : s.made ≤ t.made) :
    Inv t where
  attached key w hget := by
    rw [hcache] at hget
    obtain ⟨conn, hconn, hattached⟩ := h.attached key w hget
    exact ⟨conn, hconn.trans_le hmade, hattached⟩
  apart := by
    rw [hcache]
    exact h.apart

section Steps

variable {F : Prop} {key : Text}

theorem within_cached {α : Type} {s : Utils Msg} {w : World Msg}
    (h : s.tcpCommunicatorsCache.get? key = some w) (m : Tcp Msg α) :
    within key m s = ((m w).1,
      { s with tcpCommunicatorsCache := s.tcpCommunicatorsCache.set key (m w).2 }) := by
  rw [within, h]

theorem within_missing {α : Type} {s : Utils Msg}
    (h : s.tcpCommunicatorsCache.get? key = none) (m : Tcp Msg α) :
    within key m s = (.error .attributeError, s) := by
  rw [within, h]

theorem within_sound {α : Type} {m : Tcp Msg α} (hm : ∀ conn, Keeps (Attached conn) m) :
    Keeps (Sound F) (within key m) := by
  refine keeps_iff.mpr fun s hs => ?_
  cases hget : s.tcpCommunicatorsCache.get? key with
  | none =>
    rw [within_missing hget]
    exact hs
  | some w =>
    rw [within_cached hget]
    obtain ⟨conn, hconn, hattached⟩ := hs.1.attached key w hget
    refine ⟨hs.1.of_set rfl le_rfl (keeps_iff.mp (hm conn) w hattached) hconn ?_, hs.2⟩
    intro key' w' hne hget' hattached'
    exact hne (hs.1.apart key' key w' w conn hget' hget hattached' hattached)

theorem keeps_tcpClose (conn : ℕ) (env : CloseEnv) :
    Keeps (Attached conn) (tcpClose env : Tcp Msg Bool) :=
  ensures_weaken (tcpClose_attached env) (fun _ h => h) (fun _ _ h => h.1) fun _ _ h => h

theorem renew_run (key : Text) (env : OpenEnv) (s : Utils Msg) :
    renew key env s =
      if env.bind = true ∧ env.connect = true then
        (.ok false, { s with
          tcpCommunicatorsCache := s.tcpCommunicatorsCache.set key
            ⟨some ⟨s.made, .connected, env.reads⟩, s.made + 1, []⟩
          made := s.made + 1
          dropped := s.dropped ++ (s.tcpCommunicatorsCache.get? key).toList })
      else (.error .osError, { s with
        made := s.made + 1
        dropped := s.dropped ++ [⟨some ⟨s.made, .bound, []⟩, s.made + 1, []⟩] }) := by
  have hopen : openAndConnect env (⟨none, s.made, []⟩ : World Msg) = _ :=
    openAndConnect_start env s.made
  by_cases h : env.bind = true ∧ env.connect = true
  · rw [if_pos h] at hopen ⊢
    have hnew : newCommunicator env s = (.ok ⟨some ⟨s.made, .connected, env.reads⟩, s.made + 1, []⟩,
        { s with made := s.made + 1 }) := by
      rw [newCommunicator, hopen]
    rw [renew, bind_ok hnew]
    rfl
  · rw [if_neg h] at hopen ⊢
    have hnew : newCommunicator env s = (.error .osError, { s with
        made := s.made + 1
        dropped := s.dropped ++ [⟨some ⟨s.made, .bound, []⟩, s.made + 1, []⟩] }) := by
      rw [newCommunicator, hopen]
    rw [renew, bind_error hnew]

theorem renew_sound (env : OpenEnv) :
    Ensures (fun s => Sound F s ∧
        (F ∨ ∀ w, s.tcpCommunicatorsCache.get? key = some w → ¬ Live w))
      (renew key env) (fun _ : Bool => Sound F) (fun _ (s : Utils Msg) => Sound F s) := by
  rintro s ⟨⟨hinv, hclean⟩, hold⟩
  have hbefore : ∀ key' w', s.tcpCommunicatorsCache.get? key' = some w' →
      ¬ Attached s.made w' := by
    intro key' w' hget hattached
    obtain ⟨conn, hconn, hattached'⟩ := hinv.attached key' w' hget
    rw [hattached'.conn_eq hattached] at hconn
    exact lt_irrefl _ hconn
  rw [renew_run]
  by_cases h : env.bind = true ∧ env.connect = true
  · rw [if_pos h]
    refine ⟨hinv.of_set rfl (Nat.le_succ _) ⟨.connected, env.reads, rfl, by decide⟩
      (Nat.lt_succ_self _) fun key' w' _ hget => hbefore key' w' hget, ?_⟩
    rcases hclean with hclean | hF
    · refine hold.symm.imp (fun hold w hw => ?_) id
      rcases List.mem_append.mp hw with hw | hw
      · exact hclean w hw
      · exact hold w (Option.mem_toList.mp hw)
    · exact .inr hF
  · rw [if_neg h]
    refine ⟨hinv.of_eq rfl (Nat.le_succ _), hclean.imp_left fun hclean w hw => ?_⟩
    rcases List.mem_append.mp hw with hw | hw
    · exact hclean w hw
    · rw [List.mem_singleton.mp hw]
      rintro ⟨conn, reads, hsocket⟩
      cases hsocket

theorem within_close (env : CloseEnv) :
    Ensures (Sound F) (within key (tcpClose env))
      (fun _ s => Sound F s ∧ ∀ w, s.tcpCommunicatorsCache.get? key = some w → ¬ Live w)
      (fun _ (s : Utils Msg) => Sound F s) := by
  intro s hs
  have hkeeps : Keeps (Sound F) (within key (tcpClose env : Tcp Msg Bool)) :=
    within_sound fun conn => keeps_tcpClose conn env
  have hsound := keeps_iff.mp hkeeps s hs
  cases hget : s.tcpCommunicatorsCache.get? key with
  | none =>
    rw [within_missing hget]
    exact hs
  | some w =>
    rw [within_cached hget] at hsound ⊢
    obtain ⟨conn, -, hattached⟩ := hs.1.attached key w hget
    obtain ⟨b, w', hrun, -, hlive⟩ | ⟨e, w', hrun, -⟩ := (tcpClose_attached env).ends hattached
    · rw [hrun] at hsound ⊢
      refine ⟨hsound, fun v hv => ?_⟩
      rw [Dict.get?_set_self] at hv
      cases hv
      exact hlive
    · rw [hrun] at hsound ⊢
      exact hsound

theorem getTcpCommunicator_sound (env : GetEnv) :
    Ensures (Sound F) (getTcpCommunicator key env) (fun _ => Sound (F ∨ env.Flaps))
      (fun _ (s : Utils Msg) => Sound (F ∨ env.Flaps) s) := by
  refine ensures_bind (Q := fun a s => a = s ∧ Sound F s) (fun _ h => ⟨rfl, h⟩) fun a => ?_
  have hrenew : Ensures (fun s => Sound F s ∧
      ∀ w, s.tcpCommunicatorsCache.get? key = some w → ¬ Live w)
      (renew key env.opening) (fun _ : Bool => Sound (F ∨ env.Flaps))
      (fun _ (s : Utils Msg) => Sound (F ∨ env.Flaps) s) :=
    ensures_pre (renew_sound env.opening) fun s h => ⟨h.1.mono .inl, .inr h.2⟩
  cases hget : a.tcpCommunicatorsCache.get? key with
  | none =>
    refine ensures_pre hrenew ?_
    rintro _ ⟨rfl, h⟩
    refine ⟨h, fun w hw => ?_⟩
    rw [hget] at hw
    cases hw
  | some w =>
    refine ensures_ite (fun _ => ensures_pure fun s h => h.2.mono .inl) fun hpeek =>
      ensures_ite (fun _ => ?_) fun hagain => ?_
    · have hclose : Ensures (fun s => a = s ∧ Sound F s) (within key (tcpClose env.closing))
          (fun _ s => Sound F s ∧ ∀ w, s.tcpCommunicatorsCache.get? key = some w → ¬ Live w)
          (fun _ (s : Utils Msg) => Sound (F ∨ env.Flaps) s) :=
        ensures_weaken (within_close env.closing) (fun _ h => h.2) (fun _ _ h => h)
          fun _ _ h => h.mono .inl
      exact ensures_bind hclose fun _ => hrenew
    · refine ensures_pre (renew_sound env.opening) ?_
      rintro _ ⟨rfl, h⟩
      have hopen : tcpIsOpen env.again w = true := by simpa using hagain
      rw [tcpIsOpen_iff] at hpeek hopen
      have hflaps : env.Flaps := ⟨by simpa [hopen.1] using hpeek, hopen.2⟩
      exact ⟨h.mono .inl, .inl (.inr hflaps)⟩

theorem keeps_activation (c : DoipClient Msg) (r : Request) (env : Exchange) (conn : ℕ) :
    Keeps (Attached conn) (initiateRoutingActivationReqBound c r env) := by
  have hsend : Keeps (Attached conn) (tcpSend (c.packDoip r.protocolVersion
      (c.routingActivationRequest r.clientLogicalAddress r.activationType))
      env.activation.accepted : Tcp Msg ℕ) := by
    refine keeps_iff.mpr fun w hw => ?_
    obtain ⟨n, t, hrun, hsocket⟩ := tcpSend_socket (c.packDoip r.protocolVersion
      (c.routingActivationRequest r.clientLogicalAddress r.activationType))
      env.activation.accepted w
    obtain ⟨phase, reads, hphase⟩ := hw
    rw [hrun]
    exact ⟨phase, reads, hsocket.trans hphase.1, hphase.2⟩
  have hread : Keeps (Attached conn) (readDoip c r.timeout env.activation.clock) := by
    refine keeps_iff.mpr fun w hw => ?_
    obtain ⟨phase, reads, hsocket, hphase⟩ := hw
    cases phase with
    | bound => exact absurd rfl hphase
    | connected =>
      exact ensures_state (ensures_weaken (readDoip_connected c r.timeout env.activation.clock)
        (fun _ h => h) (fun _ _ h => h.1.attached) fun _ _ h => h.attached)
        (s := w) ⟨⟨reads, hsocket⟩, rfl⟩
    | closed =>
      have hidle : (readIdle r.timeout env.activation.clock (some ⟨conn, .closed, reads⟩) w).2 =
          w := by
        rw [readIdle]
        split <;> rfl
      simp only [readDoip, hsocket]
      rw [hidle]
      exact ⟨.closed, reads, hsocket, hphase⟩
  refine ensures_bind hsend fun _ => ensures_ite
    (fun _ => ensures_bind (keeps_tcpClose conn env.unsent) fun _ => ensures_pure fun _ h => h)
    fun _ => ensures_bind hread fun response => ?_
  cases response with
  | none => exact ensures_pure fun _ h => h
  | some m =>
    exact ensures_ite (fun _ => ensures_pure fun _ h => h) fun _ => ensures_pure fun _ h => h

theorem systemCall_sound (ok : Bool) {f : Utils Msg → Utils Msg}
    (hf : ∀ s, Sound F s → Sound F (f s)) : Keeps (Sound F) (systemCall ok f) :=
  ensures_ite (fun _ => ensures_modify hf) fun _ => ensures_raise fun _ h => h

theorem setup_sound (env : RawEnv) : Keeps (Sound F : Utils Msg → Prop) (setup env) := by
  have hopen : Keeps (Sound F : Utils Msg → Prop) (rawOpen env) := by
    refine ensures_bind (systemCall_sound env.made fun s h => ?_) fun _ =>
      ensures_bind (systemCall_sound env.bound fun s h => h) fun _ =>
      ensures_bind (systemCall_sound env.sniffer fun s h => ?_) fun _ => ensures_pure fun _ h => h
    · exact ⟨h.1.of_eq rfl le_rfl, h.2⟩
    · exact ⟨h.1.of_eq rfl le_rfl, h.2⟩
  exact ensures_bind hopen fun _ => ensures_ite (fun _ => ensures_pure fun _ h => h)
    fun _ => ensures_pure fun _ h => h

theorem rawClose_sound : Keeps (Sound F : Utils Msg → Prop) rawClose := by
  refine keeps_iff.mpr fun s hs => ?_
  have hclosed : Sound F { s with inSocket := false } := ⟨hs.1.of_eq rfl le_rfl, hs.2⟩
  rw [rawClose]
  split <;> exact hclosed

theorem closeAll_sound (closing : Text → CloseEnv) (keys : List Text) :
    Keeps (Sound F : Utils Msg → Prop) (closeAll closing keys) := by
  induction keys with
  | nil => exact ensures_pure fun _ h => h
  | cons key keys ih =>
    exact ensures_bind (within_sound fun conn => keeps_tcpClose conn (closing key)) fun _ => ih

end Steps

/-- The connection of a call is seen closed first, and open when it is asked for again. -/
def Call.Flaps : Call → Prop
  | .activate _ _ _ getting _ => getting.Flaps
  | _ => False

theorem step_sound (c : DoipClient Msg) {F : Prop} {s : Utils Msg} (hs : Sound F s) (call : Call) :
    Sound (F ∨ call.Flaps) (step c s call) := by
  cases call with
  | setup env => exact (keeps_iff.mp (setup_sound env) s hs).mono .inl
  | activate sourceAddress targetAddress r getting env =>
    exact ensures_state (ensures_bind (getTcpCommunicator_sound getting) fun _ =>
      within_sound fun conn => keeps_activation c r env conn) hs
  | teardown closing =>
    have hteardown : Keeps (Sound F : Utils Msg → Prop) (teardown closing) :=
      ensures_bind rawClose_sound fun _ => ensures_bind (keeps_get _) fun _ =>
        ensures_bind (closeAll_sound closing _) fun _ => ensures_pure fun _ h => h
    exact (keeps_iff.mp hteardown s hs).mono .inl

theorem run_sound (c : DoipClient Msg) (calls : List Call) :
    Sound (∃ call ∈ calls, call.Flaps) (run c calls) := by
  induction calls using List.reverseRecOn with
  | nil => exact ⟨inv_fresh, .inl fun w hw => by cases hw⟩
  | append_singleton calls call ih =>
    rw [run, List.foldl_append]
    refine (step_sound c ih call).mono ?_
    rintro (⟨call', hmem, hflaps⟩ | hflaps)
    · exact ⟨call', List.mem_append_left _ hmem, hflaps⟩
    · exact ⟨call, List.mem_append_right _ List.mem_cons_self, hflaps⟩

/-- Over every history of calls, whatever the network does: each cached communicator has a
connection of its own, and there is an open connection outside the cache only if one was
seen closed and then open within a call. -/
theorem connections_cached (c : DoipClient Msg) (calls : List Call) :
    Inv (run c calls) ∧
      ((∃ w ∈ (run c calls).dropped, Live w) → ∃ call ∈ calls, call.Flaps) := by
  obtain ⟨hinv, hclean⟩ := run_sound c calls
  refine ⟨hinv, ?_⟩
  rintro ⟨w, hw, hlive⟩
  exact hclean.resolve_left fun hclean => hclean w hw hlive

end InVehicle.DoipConnections
