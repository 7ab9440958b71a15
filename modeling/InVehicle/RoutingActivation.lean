import InVehicle.DoipSession

/-!
# Routing activation before diagnostic messages

The log of a run is safe if every diagnostic message went out on a connection
on which a successful routing activation response had been received.
-/

set_option autoImplicit false

namespace InVehicle.RoutingActivation
open InVehicle.Effect InVehicle.DoipMessages InVehicle.TcpSocket InVehicle.DoipSession

variable {Msg : Type} (c : DoipClient Msg)

def Activated (log : List (Event Msg)) (conn : ℕ) : Prop :=
  ∃ m, .received conn m ∈ log ∧ c.type m = .routingActivationResponse ∧
    c.responseCode m = success

def IsDiagnostic (data : Bytes) : Prop :=
  ∃ version source target payload,
    data = c.packDoip version (c.diagnosticMessage source target payload)

/-- The log is read from its latest event back. -/
def SafeLog : List (Event Msg) → Prop
  | [] => True
  | .received _ _ :: log => SafeLog log
  | .sent conn data count :: log =>
    (0 < count → IsDiagnostic c data → Activated c log conn) ∧ SafeLog log

/-- Requests for activation are not diagnostic messages. -/
def Distinct : Prop :=
  ∀ version client activation,
    ¬ IsDiagnostic c (c.packDoip version (c.routingActivationRequest client activation))

def ActiveSocket (w : World Msg) : Prop := ∃ k, w.socket = some k ∧ Activated c w.log k.conn

structure Stable (P : List (Event Msg) → Prop) : Prop where
  received : ∀ conn m log, P log → P (.received conn m :: log)
  sent : ∀ conn data count log, ¬ IsDiagnostic c data → P log → P (.sent conn data count :: log)

def Arrived (r : Option Msg) (w : World Msg) : Prop :=
  ∀ m, r = some m → ∃ k, w.socket = some k ∧ .received k.conn m ∈ w.log

def Taken (d : DoipCommunicator) (data : Bytes) (env : Env) : Prop :=
  ∃ n, env.request.accepted = some n ∧ 0 < min n (c.packDoip protocolVersion
    (c.diagnosticMessage d.clientLogicalAddress d.targetLogicalAddress data)).length

/-- The state before the call: a `send` that finds the connection open, and
whose request the socket will take, finds it activated. -/
def Guarded (d : DoipCommunicator) : Call → World Msg → Prop
  | .send data _ env, w => tcpIsOpen env.peek w = true → Taken c d data env → ActiveSocket c w
  | _, _ => True

def AllGuarded (d : DoipCommunicator) : List Call → World Msg → Prop
  | [], _ => True
  | call :: calls, w => Guarded c d call w ∧ AllGuarded d calls (step c d call w)

variable {c}

theorem safeLog_suffix (log new : List (Event Msg)) (h : SafeLog c (new ++ log)) :
    SafeLog c log := by
  induction new with
  | nil => exact h
  | cons e new ih =>
    cases e with
    | sent => exact ih h.2
    | received => exact ih h

theorem safeLog_stable : Stable c (SafeLog c) :=
  ⟨fun _ _ _ h => h, fun _ _ _ _ hd h => ⟨fun _ hm => absurd hm hd, h⟩⟩

theorem suffix_stable (log : List (Event Msg)) : Stable c (log <:+ ·) :=
  ⟨fun _ _ _ h => h.trans (List.suffix_cons _ _), fun _ _ _ _ _ h => h.trans (List.suffix_cons _ _)⟩

theorem arrived_none (w : World Msg) : Arrived none w := fun m hm => by cases hm

section Log
variable (P : List (Event Msg) → Prop)

theorem tcpOpen_log (env : OpenEnv) :
    Keeps (fun w => P w.log) (tcpOpen env : Tcp Msg Bool) := by
  apply ensures_bind (Q := fun _ w => P w.log)
  · exact ensures_modify fun _ h => h
  · intro _
    exact ensures_ite (fun _ => ensures_pure fun _ h => h) (fun _ => ensures_raise fun _ h => h)

theorem tcpConnect_log (env : OpenEnv) :
    Keeps (fun w => P w.log) (tcpConnect env : Tcp Msg Bool) := by
  intro w h
  unfold tcpConnect
  cases w.socket with
  | none => exact h
  | some k =>
    simp only
    split_ifs <;> exact h

theorem tcpClose_log (env : CloseEnv) :
    Keeps (fun w => P w.log) (tcpClose env : Tcp Msg Bool) := by
  have hclose : Keeps (fun w => P w.log) (closeSocket : Tcp Msg Unit) := by
    intro w h
    unfold closeSocket
    cases w.socket <;> exact h
  have hshut : Keeps (fun w : World Msg => P w.log) (shutdown env.shutdown) :=
    ensures_ite (fun _ => ensures_pure fun _ h => h) (fun _ => ensures_raise fun _ h => h)
  have hrest : Keeps (fun w => P w.log) (do closeSocket; return true : Tcp Msg Bool) :=
    ensures_bind hclose fun _ => ensures_pure fun _ h => h
  apply ensures_bind (Q := fun _ w => P w.log)
  · exact fun _ h => h
  · intro w
    exact ensures_ite (fun _ => ensures_bind hshut fun _ => hrest) (fun _ => hrest)

theorem reconnect_log (G : World Msg → Prop) (env : Env) :
    Ensures (fun w => P w.log ∧ (tcpIsOpen env.peek w = true → G w))
      (DoipCommunicator.reconnectTcpIfNeeded env) (fun r w => P w.log ∧ (r = false → G w))
      (fun _ w => P w.log) := by
  apply ensures_bind (Q := fun a w => P w.log ∧ (tcpIsOpen env.peek a = true → G w))
  · exact fun _ h => h
  · intro w
    have hclose := ensures_weaken (tcpClose_log P env.closing)
      (A := fun t => P t.log ∧ (tcpIsOpen env.peek w = true → G t))
      (fun _ h => h.1) (fun _ _ h => h) (fun _ _ h => h)
    apply ensures_ite
    · intro _
      apply ensures_bind hclose
      intro _
      apply ensures_bind (tcpOpen_log P env.opening)
      intro _
      exact ensures_bind (tcpConnect_log P env.opening) fun _ =>
        ensures_pure fun _ h => ⟨h, fun hf => by cases hf⟩
    · exact fun hopen => ensures_pure fun _ h => ⟨h.1, fun _ => h.2 (by simpa using hopen)⟩

theorem tcpSend_log (G : World Msg → Prop) (data : Bytes) (accepted : Option ℕ)
    (hs : ∀ w k n, w.socket = some k → accepted = some n → P w.log → G w →
      P (.sent k.conn data (min n data.length) :: w.log)) :
    Ensures (fun w => P w.log ∧ G w) (tcpSend data accepted : Tcp Msg ℕ) (fun _ w => P w.log)
      (fun _ w => P w.log) := by
  rintro w ⟨h, hg⟩
  rcases hk : w.socket with _ | ⟨conn, phase, reads⟩
  · simpa only [tcpSend, hk] using h
  · cases accepted with
    | none => simpa only [tcpSend, hk] using h
    | some n =>
      cases phase with
      | bound => simpa [tcpSend, hk] using h
      | closed => simpa [tcpSend, hk] using h
      | connected => simpa [tcpSend, hk] using hs w _ n hk rfl h hg

theorem readIdle_log (timeout : ℚ) (clock : ℕ → ℚ) (k : Option Socket) :
    Ensures (fun w => P w.log) (readIdle timeout clock k)
      (fun r w => P w.log ∧ Arrived r w) (fun _ w => P w.log) := by
  apply ensures_ite
  · exact fun _ => ensures_raise fun _ h => h
  · exact fun _ => ensures_pure fun w h => ⟨h, arrived_none w⟩

variable (hP : Stable c P)
include hP

theorem readDoip_log (timeout : ℚ) (clock : ℕ → ℚ) :
    Ensures (fun w => P w.log) (readDoip c timeout clock)
      (fun r w => P w.log ∧ Arrived r w) (fun _ w => P w.log) := by
  intro w h
  rcases hk : w.socket with _ | ⟨conn, phase, reads⟩
  · simpa only [readDoip, hk] using readIdle_log P timeout clock _ w h
  · cases phase with
    | bound => simpa only [readDoip, hk] using readIdle_log P timeout clock _ w h
    | closed => simpa only [readDoip, hk] using readIdle_log P timeout clock _ w h
    | connected =>
      simp only [readDoip, hk]
      rcases DoipReader.readDoip c timeout clock reads with ⟨e | _ | m, rest⟩
      · exact h
      · exact ⟨h, arrived_none _⟩
      · refine ⟨hP.received conn m w.log h, fun m' hm => ⟨_, rfl, ?_⟩⟩
        cases hm
        exact List.mem_cons_self

theorem activation_log (hc : Distinct c) (d : DoipCommunicator)
    (hd : d.routingActivationNeeded = true) (timeout : ℚ) (env : Env) :
    Ensures (fun w => P w.log) (d.initiateRoutingActivationIfNeeded c timeout env)
      (fun ok w => P w.log ∧ (ok = true → ActiveSocket c w)) (fun _ w => P w.log) := by
  have hbound : Ensures (fun w => P w.log)
      (initiateRoutingActivationReqBound c d.clientLogicalAddress timeout env.activation
        env.unsent)
      (fun r w => P w.log ∧ Arrived r w ∧
        ∀ m, r = some m → c.type m = .routingActivationResponse) (fun _ w => P w.log) := by
    have hsend := ensures_weaken (tcpSend_log P (fun _ => True) (c.packDoip protocolVersion
        (c.routingActivationRequest d.clientLogicalAddress activationTypeDefault))
        env.activation.accepted (fun w k n _ _ h _ => hP.sent k.conn _ _ w.log (hc _ _ _) h))
      (A := fun w => P w.log) (fun _ h => ⟨h, trivial⟩) (fun _ _ h => h) (fun _ _ h => h)
    apply ensures_bind hsend
    intro sent
    apply ensures_ite
    · intro _
      exact ensures_bind (tcpClose_log P env.unsent) fun _ =>
        ensures_pure fun w h => ⟨h, arrived_none w, fun m hm => by cases hm⟩
    · intro _
      apply ensures_bind (readDoip_log P hP timeout env.activation.clock)
      intro r
      cases r with
      | none => exact ensures_pure fun w h => ⟨h.1, h.2, fun m hm => by cases hm⟩
      | some m =>
        apply ensures_ite
        · exact fun ht => ensures_pure fun w h => ⟨h.1, h.2, fun m' he => by cases he; exact ht⟩
        · exact fun _ => ensures_pure fun w h => ⟨h.1, arrived_none w, fun m hm => by cases hm⟩
  unfold DoipCommunicator.initiateRoutingActivationIfNeeded
  rw [if_pos hd]
  apply ensures_bind hbound
  intro r
  cases r with
  | none => exact ensures_pure fun _ h => ⟨h.1, fun hf => by cases hf⟩
  | some m =>
    apply ensures_pure
    rintro w ⟨h, hm, ht⟩
    refine ⟨h, fun hcode => ?_⟩
    obtain ⟨k, hk, hlog⟩ := hm m rfl
    exact ⟨k, hk, m, hlog, ht m rfl, by simpa using hcode⟩

/-- The first half of `send` and of `recv`, before a rest that needs `G`. -/
theorem prepare_log {α : Type} (hc : Distinct c) (d : DoipCommunicator)
    (hd : d.routingActivationNeeded = true) (timeout : ℚ) (env : Env) (G : World Msg → Prop)
    (hG : ∀ w, ActiveSocket c w → G w) (a : α) (rest : Tcp Msg α)
    (hrest : Ensures (fun w => P w.log ∧ G w) rest (fun _ w => P w.log) (fun _ w => P w.log)) :
    Ensures (fun w => P w.log ∧ (tcpIsOpen env.peek w = true → G w))
      (do
        let reconnected ← DoipCommunicator.reconnectTcpIfNeeded env
        if reconnected then
          let activated ← d.initiateRoutingActivationIfNeeded c timeout env
          if !activated then return a
        rest)
      (fun _ w => P w.log) (fun _ w => P w.log) := by
  apply ensures_bind (reconnect_log P G env)
  intro reconnected
  cases reconnected with
  | false =>
    exact ensures_weaken hrest (fun w h => ⟨h.1, h.2 rfl⟩) (fun _ _ h => h) (fun _ _ h => h)
  | true =>
    have hact := ensures_weaken (activation_log P hP hc d hd timeout env)
      (A := fun w => P w.log ∧ (true = false → G w)) (fun _ h => h.1) (fun _ _ h => h)
      (fun _ _ h => h)
    apply ensures_bind hact
    intro activated
    cases activated with
    | false => exact ensures_pure fun _ h => h.1
    | true =>
      exact ensures_weaken hrest (fun w h => ⟨h.1, hG w (h.2 rfl)⟩) (fun _ _ h => h)
        (fun _ _ h => h)

theorem readUdsResponse_log (timeout : ℚ) (clock : ℕ → ℚ) :
    Keeps (fun w => P w.log) (readUdsResponse c timeout clock) := by
  apply ensures_bind (readDoip_log P hP timeout clock)
  intro r
  cases r with
  | none => exact ensures_pure fun _ h => h.1
  | some m =>
    apply ensures_ite
    · exact fun _ => ensures_pure fun _ h => h.1
    · exact fun _ => ensures_pure fun _ h => h.1

theorem recv_log (hc : Distinct c) (d : DoipCommunicator) (hd : d.routingActivationNeeded = true)
    (recvTimeout : ℚ) (env : Env) : Keeps (fun w => P w.log) (d.recv c recvTimeout env) := by
  have hrest : Keeps (fun w => P w.log) (do
      let receivedData ← readUdsResponse c recvTimeout env.request.clock
      return receivedData.getD [] : Tcp Msg Bytes) :=
    ensures_bind (readUdsResponse_log P hP recvTimeout env.request.clock)
      fun _ => ensures_pure fun _ h => h
  have hprep := prepare_log P hP hc d hd recvTimeout env (fun _ => True) (fun _ _ => trivial)
    [] _ (ensures_pre hrest fun _ h => h.1)
  exact ensures_pre hprep fun _ h => ⟨h, fun _ => trivial⟩

theorem readAcknowledgement_log (timeout : ℚ) (clock : ℕ → ℚ) (sentBytes : ℕ) :
    Keeps (fun w => P w.log) (do
      let _ ← readDoip c timeout clock
      return sentBytes : Tcp Msg ℕ) :=
  ensures_bind (readDoip_log P hP timeout clock) fun _ => ensures_pure fun _ h => h.1

theorem sendUdsRequest_log (G : World Msg → Prop) (payload : Bytes) (client target : ℕ)
    (timeout : ℚ) (env : ExchangeEnv)
    (hs : ∀ w k n, w.socket = some k → env.accepted = some n → P w.log → G w →
      let data := c.packDoip protocolVersion (c.diagnosticMessage client target payload)
      P (.sent k.conn data (min n data.length) :: w.log)) :
    Ensures (fun w => P w.log ∧ G w) (sendUdsRequest c payload client target timeout env)
      (fun _ w => P w.log) (fun _ w => P w.log) := by
  apply ensures_bind (tcpSend_log P G _ env.accepted hs)
  exact readAcknowledgement_log P hP timeout env.clock

/-- What a call keeps of the log, if its diagnostic message may be added in
every state with `G`. -/
theorem step_log (hc : Distinct c) (d : DoipCommunicator) (hd : d.routingActivationNeeded = true)
    (call : Call) (w : World Msg) (h : P w.log) (G : World Msg → Prop)
    (hG : ∀ w, ActiveSocket c w → G w)
    (hs : ∀ data timeout env, call = .send data timeout env →
      (tcpIsOpen env.peek w = true → G w) ∧
      ∀ w k n, w.socket = some k → env.request.accepted = some n → P w.log → G w →
        let packed := c.packDoip protocolVersion
          (c.diagnosticMessage d.clientLogicalAddress d.targetLogicalAddress data)
        P (.sent k.conn packed (min n packed.length) :: w.log)) :
    P (step c d call w).log := by
  cases call with
  | «open» env =>
    have hopen : Keeps (fun w => P w.log) (d.open c env) := by
      apply ensures_bind (tcpOpen_log P env.opening)
      intro _
      apply ensures_bind (tcpConnect_log P env.opening)
      intro _
      exact ensures_weaken (activation_log P hP hc d hd 2 env) (fun _ h => h) (fun _ _ h => h.1)
        (fun _ _ h => h)
    exact ensures_state hopen h
  | send data timeout env =>
    obtain ⟨hopen, hsent⟩ := hs data timeout env rfl
    have hrest := sendUdsRequest_log P hP G data d.clientLogicalAddress d.targetLogicalAddress
      timeout env.request hsent
    exact ensures_state (prepare_log P hP hc d hd timeout env G hG 0 _ hrest) ⟨h, hopen⟩
  | recv recvTimeout env => exact ensures_state (recv_log P hP hc d hd recvTimeout env) h
  | close env =>
    have hclose : Keeps (fun w => P w.log) (DoipCommunicator.close env : Tcp Msg Bool) :=
      ensures_bind (tcpClose_log P env.closing) fun _ => ensures_pure fun _ h => h
    exact ensures_state hclose h

end Log

theorem step_safe (hc : Distinct c) (d : DoipCommunicator) (hd : d.routingActivationNeeded = true)
    (call : Call) (w : World Msg) (h : SafeLog c w.log) (hg : Guarded c d call w) :
    SafeLog c (step c d call w).log := by
  -- what a request needs is decided before the reconnection and known after it
  apply step_log (SafeLog c) safeLog_stable hc d hd call w h fun t =>
    ∀ data timeout env, call = .send data timeout env → Taken c d data env → ActiveSocket c t
  · exact fun t ht _ _ _ _ _ => ht
  · rintro data timeout env rfl
    refine ⟨fun hopen _ _ _ he htaken => ?_, fun t k n hk hn ht hready => ⟨fun hpos _ => ?_, ht⟩⟩
    · cases he
      exact hg hopen htaken
    · obtain ⟨k', hk', hact⟩ := hready data timeout env rfl ⟨n, hn, hpos⟩
      rw [hk] at hk'
      cases hk'
      exact hact

theorem step_suffix (hc : Distinct c) (d : DoipCommunicator)
    (hd : d.routingActivationNeeded = true) (call : Call) (w : World Msg) :
    w.log <:+ (step c d call w).log := by
  apply step_log (w.log <:+ ·) (suffix_stable w.log) hc d hd call w (List.suffix_refl _)
    (fun _ => True) (fun _ _ => trivial)
  intro data timeout env _
  exact ⟨fun _ => trivial, fun t k n _ _ h _ => h.trans (List.suffix_cons _ _)⟩

theorem run_suffix (hc : Distinct c) (d : DoipCommunicator)
    (hd : d.routingActivationNeeded = true) (calls : List Call) (w : World Msg) :
    w.log <:+ (run c d calls w).log := by
  induction calls generalizing w with
  | nil => exact List.suffix_refl _
  | cons call calls ih => exact (step_suffix hc d hd call w).trans (ih _)

/-- The message of an unguarded `send` is in the log, and no activation is
behind it. -/
theorem step_unsafe (d : DoipCommunicator) (call : Call) (w : World Msg)
    (hg : ¬ Guarded c d call w) : ¬ SafeLog c (step c d call w).log := by
  cases call with
  | «open» => exact absurd trivial hg
  | recv => exact absurd trivial hg
  | close => exact absurd trivial hg
  | send data timeout env =>
    simp only [Guarded, not_forall] at hg
    obtain ⟨hopen, ⟨n, hn, hpos⟩, hinactive⟩ := hg
    obtain ⟨conn, reads, hk⟩ := tcpIsOpen_connected env.peek w hopen
    have hsend := tcpSend_connected (c.packDoip protocolVersion (c.diagnosticMessage
      d.clientLogicalAddress d.targetLogicalAddress data)) n conn reads w hk
    rw [step, DoipCommunicator.send_open c hopen, sendUdsRequest, hn, bind_ok hsend]
    -- whatever the read behind it does, the message stays in the log
    set t := { w with log := .sent conn _ _ :: w.log }
    obtain ⟨new, hnew⟩ := ensures_state (readAcknowledgement_log (c := c) (t.log <:+ ·)
      (suffix_stable t.log) timeout env.request.clock _) (List.suffix_refl t.log)
    intro hsafe
    rw [← hnew] at hsafe
    obtain ⟨hact, -⟩ := safeLog_suffix _ new hsafe
    exact hinactive ⟨_, hk, hact hpos ⟨_, _, _, _, rfl⟩⟩

theorem isoClient_distinct : Distinct isoClient := by
  rintro version client activation ⟨version', source, target, payload, h⟩
  have htype := congrArg (fun data : Bytes => (data.drop 2).take 2) h
  simp only [isoClient, packMessage] at htype
  rw [List.drop_left' (by rfl), List.drop_left' (by rfl), List.take_left' (by rfl),
    List.take_left' (by rfl)] at htype
  exact absurd htype (by decide)

/-- With routing activation needed, the log of a run is safe exactly when every
`send` that the socket takes finds the connection closed or activated. -/
theorem run_safe_iff (hc : Distinct c) (d : DoipCommunicator)
    (hd : d.routingActivationNeeded = true) (calls : List Call) (w : World Msg)
    (h : SafeLog c w.log) : SafeLog c (run c d calls w).log ↔ AllGuarded c d calls w := by
  induction calls generalizing w with
  | nil => exact iff_of_true h trivial
  | cons call calls ih =>
    by_cases hg : Guarded c d call w
    · exact (ih _ (step_safe hc d hd call w h hg)).trans (and_iff_right hg).symm
    · refine iff_of_false (fun hsafe => ?_) fun hall => hg hall.1
      obtain ⟨new, hnew⟩ := run_suffix hc d hd calls (step c d call w)
      rw [run, ← hnew] at hsafe
      exact step_unsafe d call w hg (safeLog_suffix _ new hsafe)

theorem run_safe_activated :
    let d : DoipCommunicator := ⟨0x0E00, 0x1000, true⟩
    let granted : Message := (0x0006, [0x0E, 0x00, 0x10, 0x00, 0x10, 0, 0, 0, 0])
    let answers : ExchangeEnv := ⟨some 64, fun _ => 0⟩
    let env : Env := ⟨.wouldBlock, ⟨.wouldBlock, true⟩, ⟨true, true, [.data (packMessage 2 granted)]⟩,
      answers, ⟨.wouldBlock, true⟩, answers⟩
    let calls : List Call := [.open env, .send [0x3E, 0x00] 1 env]
    (run isoClient d calls (World.start Message)).log =
        [.sent 0 (isoClient.packDoip 2 (isoClient.diagnosticMessage 0x0E00 0x1000 [0x3E, 0x00])) 14,
          .received 0 granted,
          .sent 0 (isoClient.packDoip 2 (isoClient.routingActivationRequest 0x0E00 0)) 15] ∧
      AllGuarded isoClient d calls (World.start Message) ∧
      SafeLog isoClient (run isoClient d calls (World.start Message)).log := by
  intro d granted answers env calls
  have hsocket : (step isoClient d (.open env) (World.start Message)).socket.map (·.conn) =
      some 0 := by decide +kernel
  obtain ⟨k, hk, hconn⟩ := Option.map_eq_some_iff.mp hsocket
  have hreceived : .received 0 granted ∈
      (step isoClient d (.open env) (World.start Message)).log := by decide +kernel
  have hguarded : AllGuarded isoClient d calls (World.start Message) := by
    refine ⟨trivial, fun _ _ => ⟨k, hk, granted, ?_, by decide, by decide⟩, trivial⟩
    rw [hconn]
    exact hreceived
  exact ⟨by decide +kernel, hguarded,
    (run_safe_iff isoClient_distinct d rfl calls (World.start Message) trivial).mpr hguarded⟩

/-- Activation is denied and `open` fails, but the connection stays open and
the next `send` uses it. -/
theorem denied_then_sent :
    let d : DoipCommunicator := ⟨0x0E00, 0x1000, true⟩
    let denied : Message := (0x0006, [0x0E, 0x00, 0x10, 0x00, 0x00, 0, 0, 0, 0])
    let answers : ExchangeEnv := ⟨some 64, fun _ => 0⟩
    let env : Env := ⟨.wouldBlock, ⟨.wouldBlock, true⟩, ⟨true, true, [.data (packMessage 2 denied)]⟩,
      answers, ⟨.wouldBlock, true⟩, answers⟩
    let calls : List Call := [.open env, .send [0x3E, 0x00] 1 env]
    (d.open isoClient env (World.start Message)).1 = .ok false ∧
      ¬ SafeLog isoClient (run isoClient d calls (World.start Message)).log := by
  intro d denied answers env calls
  refine ⟨by decide +kernel, fun h => ?_⟩
  have hlog : (run isoClient d calls (World.start Message)).log =
      [.sent 0 (isoClient.packDoip 2 (isoClient.diagnosticMessage 0x0E00 0x1000 [0x3E, 0x00])) 14,
        .received 0 denied,
        .sent 0 (isoClient.packDoip 2 (isoClient.routingActivationRequest 0x0E00 0)) 15] := by
    decide +kernel
  rw [hlog] at h
  obtain ⟨m, hm, -, hcode⟩ := h.1 (by decide) ⟨_, _, _, _, rfl⟩
  simp only [List.mem_cons, Event.received.injEq, true_and, List.not_mem_nil, or_false] at hm
  rcases hm with rfl | hm
  · exact absurd hcode (by decide)
  · cases hm

end InVehicle.RoutingActivation
