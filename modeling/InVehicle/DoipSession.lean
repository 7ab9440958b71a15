import InVehicle.DoipReader

/-!
# The DoIP communicator

`DoipCommunicator` over its TCP communicator, with the functions of `DoipUtils`
that it calls. A call is given what the operating system answers in it. A call
that raises keeps the changes made before.
-/

set_option autoImplicit false

namespace InVehicle.DoipSession
open InVehicle.Effect InVehicle.DoipMessages InVehicle.TcpSocket

structure DoipCommunicator where
  clientLogicalAddress : ℕ
  targetLogicalAddress : ℕ
  routingActivationNeeded : Bool
  deriving DecidableEq, Repr

/-- One exchange: what `send` of the socket accepts and the clock of the read. -/
structure ExchangeEnv where
  accepted : Option ℕ
  clock : ℕ → ℚ

structure Env where
  peek : Peek
  closing : CloseEnv
  opening : OpenEnv
  activation : ExchangeEnv
  unsent : CloseEnv
  request : ExchangeEnv

def protocolVersion : ℕ := 0x02

def activationTypeDefault : ℕ := 0x00

def success : ℕ := 0x10

variable {Msg : Type} (c : DoipClient Msg)

/-- `select` on no socket, `recv` on no socket, and on one that cannot be read. -/
def recvError (timeout : ℚ) : Option Socket → PyError
  | none => if 0 < timeout then .typeError else .attributeError
  | some ⟨_, .closed, _⟩ => if 0 < timeout then .valueError else .osError
  | some _ => .osError

/-- `_read_doip` with no connection to read from. -/
def readIdle (timeout : ℚ) (clock : ℕ → ℚ) (k : Option Socket) : Tcp Msg (Option Msg) :=
  if clock 1 - clock 0 ≤ timeout then Prog.raise (recvError timeout k) else return none

def readDoip (timeout : ℚ) (clock : ℕ → ℚ) : Tcp Msg (Option Msg) := fun w =>
  match w.socket with
  | some ⟨conn, .connected, reads⟩ =>
    let result := DoipReader.readDoip c timeout clock reads
    let w := { w with socket := some ⟨conn, .connected, result.2⟩ }
    match result.1 with
    | .ok (some m) => (.ok (some m), { w with log := .received conn m :: w.log })
    | .ok none => (.ok none, w)
    | .error e => (.error e, w)
  | k => readIdle timeout clock k w

def initiateRoutingActivationReqBound (clientLogicalAddress : ℕ) (timeout : ℚ)
    (env : ExchangeEnv) (unsent : CloseEnv) : Tcp Msg (Option Msg) := do
  let data := c.packDoip protocolVersion
    (c.routingActivationRequest clientLogicalAddress activationTypeDefault)
  let bytesSent ← tcpSend data env.accepted
  if bytesSent = 0 then
    let _ ← tcpClose unsent
    return none
  let response ← readDoip c timeout env.clock
  match response with
  | some m => if c.type m = .routingActivationResponse then return some m else return none
  | none => return none

/-- The positive acknowledgement is only asked for in the log. -/
def sendUdsRequest (payload : Bytes) (clientLogicalAddress targetLogicalAddress : ℕ)
    (timeout : ℚ) (env : ExchangeEnv) : Tcp Msg ℕ := do
  let data := c.packDoip protocolVersion
    (c.diagnosticMessage clientLogicalAddress targetLogicalAddress payload)
  let sentBytes ← tcpSend data env.accepted
  let _ ← readDoip c timeout env.clock
  return sentBytes

def readUdsResponse (timeout : ℚ) (clock : ℕ → ℚ) : Tcp Msg (Option Bytes) := do
  let response ← readDoip c timeout clock
  match response with
  | some m => if c.type m = .diagnosticMessage then return some (c.userData m) else return none
  | none => return none

namespace DoipCommunicator

variable (d : DoipCommunicator)

def initiateRoutingActivationIfNeeded (timeout : ℚ) (env : Env) : Tcp Msg Bool := do
  if d.routingActivationNeeded then
    let resp ← initiateRoutingActivationReqBound c d.clientLogicalAddress timeout
      env.activation env.unsent
    match resp with
    | none => return false
    | some m => return c.responseCode m = success
  else return true

def reconnectTcpIfNeeded (env : Env) : Tcp Msg Bool := do
  let w ← Prog.get
  if !tcpIsOpen env.peek w then
    let _ ← tcpClose env.closing
    let _ ← tcpOpen env.opening
    let _ ← tcpConnect env.opening
    return true
  return false

def send (data : Bytes) (timeout : ℚ) (env : Env) : Tcp Msg ℕ := do
  let reconnected ← reconnectTcpIfNeeded env
  if reconnected then
    let activated ← d.initiateRoutingActivationIfNeeded c timeout env
    if !activated then return 0
  sendUdsRequest c data d.clientLogicalAddress d.targetLogicalAddress timeout env.request

def recv (recvTimeout : ℚ) (env : Env) : Tcp Msg Bytes := do
  let reconnected ← reconnectTcpIfNeeded env
  if reconnected then
    let activated ← d.initiateRoutingActivationIfNeeded c recvTimeout env
    if !activated then return []
  let receivedData ← readUdsResponse c recvTimeout env.request.clock
  return receivedData.getD []

def «open» (env : Env) : Tcp Msg Bool := do
  let _ ← tcpOpen env.opening
  let _ ← tcpConnect env.opening
  d.initiateRoutingActivationIfNeeded c 2 env

def close (env : Env) : Tcp Msg Bool := do
  let _ ← tcpClose env.closing
  return true

variable {d} {w : World Msg} {env : Env} (h : tcpIsOpen env.peek w = true)
include h

theorem reconnectTcpIfNeeded_open : reconnectTcpIfNeeded env w = (.ok false, w) := by
  have hget : (Prog.get : Tcp Msg (World Msg)) w = (.ok w, w) := rfl
  rw [reconnectTcpIfNeeded, bind_ok hget, h]
  rfl

theorem send_open (data : Bytes) (timeout : ℚ) :
    d.send c data timeout env w = sendUdsRequest c data d.clientLogicalAddress
      d.targetLogicalAddress timeout env.request w := by
  rw [send, bind_ok (reconnectTcpIfNeeded_open h)]
  rfl

theorem recv_open (recvTimeout : ℚ) :
    d.recv c recvTimeout env w = (do
      let receivedData ← readUdsResponse c recvTimeout env.request.clock
      return receivedData.getD [] : Tcp Msg Bytes) w := by
  rw [recv, bind_ok (reconnectTcpIfNeeded_open h)]
  rfl

end DoipCommunicator

inductive Call where
  | open (env : Env)
  | send (data : Bytes) (timeout : ℚ) (env : Env)
  | recv (recvTimeout : ℚ) (env : Env)
  | close (env : Env)

/-- The state after a call, returned from or raised out of. -/
def step (d : DoipCommunicator) : Call → World Msg → World Msg
  | .open env, w => (d.open c env w).2
  | .send data timeout env, w => (d.send c data timeout env w).2
  | .recv recvTimeout env, w => (d.recv c recvTimeout env w).2
  | .close env, w => (DoipCommunicator.close env w).2

def run (d : DoipCommunicator) : List Call → World Msg → World Msg
  | [], w => w
  | call :: calls, w => run d calls (step c d call w)

end InVehicle.DoipSession
