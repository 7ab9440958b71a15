import InVehicle.DoipSession

/-!
# The answer to a request over DoIP

With every message in a socket read of its own, `send` takes the first message
of the peer whatever it is, and `recv` answers from the second one alone.
-/

set_option autoImplicit false

namespace InVehicle.DoipAnswers
open InVehicle.Effect InVehicle.Framing InVehicle.DoipMessages InVehicle.DoipReader
open InVehicle.TcpSocket InVehicle.DoipSession

variable {Msg : Type} (c : DoipClient Msg)

/-- What `recv` returns of the message that it reads. -/
def answer : Option Msg → Bytes
  | some m => if c.type m = .diagnosticMessage then c.userData m else []
  | none => []

/-- The socket with the messages that are still to be read from it. -/
def Pending (conn : ℕ) (ms : List Msg) (w : World Msg) : Prop :=
  ∃ ws, List.Forall₂ (IsFrame c.readMessage) ws ms ∧
    w.socket = some ⟨conn, .connected, ws.map .data⟩

variable {c}

theorem readDoip_pending (timeout : ℚ) (clock : ℕ → ℚ) (hin : InTime timeout clock) (conn : ℕ)
    (ms : List Msg) (w : World Msg) (h : Pending c conn ms w) :
    ∃ t, DoipSession.readDoip c timeout clock w = (.ok (seen c ms.head?), t) ∧
      Pending c conn ms.tail t := by
  obtain ⟨ws, hw, hk⟩ := h
  cases hw with
  | nil =>
    refine ⟨w, ?_, [], .nil, hk⟩
    have hread : DoipReader.readDoip c timeout clock [] = (.ok none, []) := by
      rw [DoipReader.readDoip, readLoop, if_pos (hin 1)]
      rfl
    rw [List.map_nil] at hk
    simp only [DoipSession.readDoip, hk, hread]
    cases w
    cases hk
    rfl
  | @cons b m ws ms hb hw =>
    have hread := readDoip_frame c timeout clock hin b m hb (ws.map .data)
    rw [List.map_cons] at hk
    simp only [DoipSession.readDoip, hk, hread]
    cases hs : seen c (some m) with
    | none => exact ⟨_, by rw [List.head?_cons, hs], ws, hw, rfl⟩
    | some m' => exact ⟨_, by rw [List.head?_cons, hs], ws, hw, rfl⟩

theorem sendUdsRequest_pending (payload : Bytes) (client target : ℕ) (timeout : ℚ)
    (env : ExchangeEnv) (hin : InTime timeout env.clock) (conn : ℕ) (ms : List Msg)
    (w : World Msg) (h : Pending c conn ms w) :
    ∃ n t, sendUdsRequest c payload client target timeout env w = (.ok n, t) ∧
      Pending c conn ms.tail t := by
  obtain ⟨n, s, hsend, hs⟩ := tcpSend_socket
    (c.packDoip protocolVersion (c.diagnosticMessage client target payload)) env.accepted w
  obtain ⟨ws, hw, hk⟩ := h
  obtain ⟨t, hread, ht⟩ := readDoip_pending timeout env.clock hin conn ms s
    ⟨ws, hw, hs.trans hk⟩
  refine ⟨n, t, ?_, ht⟩
  rw [sendUdsRequest, bind_ok hsend, bind_ok hread, pure_apply]

theorem answer_seen (r : Option Msg) :
    ((seen c r).bind fun m =>
      if c.type m = .diagnosticMessage then some (c.userData m) else none).getD [] =
        answer c r := by
  cases r with
  | none => rfl
  | some m => cases ht : c.type m <;> simp [seen, answer, ht]

/-- `recv` on an open connection answers from the next message alone. -/
theorem recv_pending (d : DoipCommunicator) (recvTimeout : ℚ) (env : Env)
    (hin : InTime recvTimeout env.request.clock) (conn : ℕ) (ms : List Msg) (w : World Msg)
    (hopen : tcpIsOpen env.peek w = true) (h : Pending c conn ms w) :
    ∃ u, d.recv c recvTimeout env w = (.ok (answer c ms.head?), u) ∧ Pending c conn ms.tail u := by
  obtain ⟨u, hread, hu⟩ := readDoip_pending recvTimeout env.request.clock hin conn ms w h
  refine ⟨u, ?_, hu⟩
  have hresponse : readUdsResponse c recvTimeout env.request.clock w =
      (.ok ((seen c ms.head?).bind fun m =>
        if c.type m = .diagnosticMessage then some (c.userData m) else none), u) := by
    rw [readUdsResponse, bind_ok hread]
    cases seen c ms.head? with
    | none => rfl
    | some m =>
      simp only [Option.bind_some]
      split_ifs <;> rfl
  rw [DoipCommunicator.recv_open c hopen, bind_ok hresponse, pure_apply, answer_seen]

/-- On an open connection `send` and then `recv` take the first two messages,
and the second one alone decides what `recv` returns. -/
theorem send_recv_answer (d : DoipCommunicator) (data : Bytes) (timeout recvTimeout : ℚ)
    (env env' : Env) (w : World Msg) (conn : ℕ) (ms : List Msg) (h : Pending c conn ms w)
    (hopen : tcpIsOpen env.peek w = true) (hopen' : tcpIsOpen env'.peek w = true)
    (hin : InTime timeout env.request.clock) (hin' : InTime recvTimeout env'.request.clock) :
    ∃ n t u, d.send c data timeout env w = (.ok n, t) ∧
      d.recv c recvTimeout env' t = (.ok (answer c ms.tail.head?), u) ∧
      Pending c conn ms.tail.tail u := by
  obtain ⟨n, t, hsend, ht⟩ := sendUdsRequest_pending data d.clientLogicalAddress
    d.targetLogicalAddress timeout env.request hin conn ms w h
  rw [← DoipCommunicator.send_open c hopen] at hsend
  have hopent : tcpIsOpen env'.peek t = true := by
    obtain ⟨ws, -, hk⟩ := ht
    exact tcpIsOpen_again env'.peek w t hopen' conn _ hk
  obtain ⟨u, hrecv, hu⟩ := recv_pending d recvTimeout env' hin' conn ms.tail t hopent ht
  exact ⟨n, t, u, hsend, hrecv, hu⟩

theorem send_recv_acknowledged :
    let d : DoipCommunicator := ⟨0x0E00, 0x1000, true⟩
    let ms : List Message := [(0x8002, [0x10, 0x00, 0x0E, 0x00, 0x00]),
      (0x8001, [0x10, 0x00, 0x0E, 0x00, 0x7E, 0x00])]
    let w : World Message := ⟨some ⟨0, .connected, (ms.map (packMessage 2)).map .data⟩, 1, []⟩
    let answers : ExchangeEnv := ⟨some 64, fun _ => 0⟩
    let env : Env := ⟨.wouldBlock, ⟨.wouldBlock, true⟩, ⟨true, true, []⟩, answers,
      ⟨.wouldBlock, true⟩, answers⟩
    ∃ n t u, d.send isoClient [0x3E, 0x00] 1 env w = (.ok n, t) ∧
      d.recv isoClient 1 env t = (.ok (answer isoClient ms.tail.head?), u) ∧
      Pending isoClient 0 ms.tail.tail u := by
  intro d ms w answers env
  have hack := packMessage_frame 2 (0x8002, [0x10, 0x00, 0x0E, 0x00, 0x00]) (by decide)
    (by decide)
  have hanswer := packMessage_frame 2 (0x8001, [0x10, 0x00, 0x0E, 0x00, 0x7E, 0x00]) (by decide)
    (by decide)
  exact send_recv_answer d [0x3E, 0x00] 1 1 env env w 0 ms
    ⟨ms.map (packMessage 2), .cons hack (.cons hanswer .nil), rfl⟩ rfl rfl
    (by simp [InTime, env, answers]) (by simp [InTime, env, answers])

/-- An alive check before the target's answer makes `recv` report none, and a
message of another ECU is returned in its place. -/
theorem answer_hidden :
    let d : DoipCommunicator := ⟨0x0E00, 0x1000, true⟩
    let ack : Message := (0x8002, [0x10, 0x00, 0x0E, 0x00, 0x00])
    let aliveCheck : Message := (0x0007, [])
    let other : Message := (0x8001, [0x20, 0x00, 0x0E, 0x00, 0x7F, 0x3E, 0x11])
    let target : Message := (0x8001, [0x10, 0x00, 0x0E, 0x00, 0x7E, 0x00])
    let start (ms : List Message) : World Message :=
      ⟨some ⟨0, .connected, (ms.map (packMessage 2)).map .data⟩, 1, []⟩
    let answers : ExchangeEnv := ⟨some 64, fun _ => 0⟩
    let env : Env := ⟨.wouldBlock, ⟨.wouldBlock, true⟩, ⟨true, true, []⟩, answers,
      ⟨.wouldBlock, true⟩, answers⟩
    let answered (ms : List Message) : Except PyError Bytes :=
      (d.recv isoClient 1 env (d.send isoClient [0x3E, 0x00] 1 env (start ms)).2).1
    isoClient.type target = .diagnosticMessage ∧
      isoClient.sourceAddress target = d.targetLogicalAddress ∧
      isoClient.sourceAddress other ≠ d.targetLogicalAddress ∧
      answered [ack, aliveCheck, target] = .ok [] ∧
      answered [ack, other, target] = .ok [0x7F, 0x3E, 0x11] := by
  decide +kernel

end InVehicle.DoipAnswers
