import InVehicle.Basic
import InVehicle.Effect

/-!
# The TCP communicator

`TcpCommunicator` over its socket. Each method is given what the operating
system answers in that call. A socket keeps what will still be read from it, and
the log keeps what went over each connection, latest first.
-/

set_option autoImplicit false

namespace InVehicle.TcpSocket
open InVehicle.Effect

inductive Phase where
  | bound
  | connected
  | closed
  deriving DecidableEq, Repr

/-- The result of `recv` on a connected socket, after `select` if there is a
timeout. -/
inductive SockRecv where
  | notReady
  | data (b : Bytes)
  | reset
  | timedOut
  | otherError
  deriving DecidableEq, Repr

/-- The result of the peeking `recv` of `is_open`. -/
inductive Peek where
  | data (b : Bytes)
  | wouldBlock
  | reset
  | timedOut
  | otherError
  deriving DecidableEq, Repr

structure Socket where
  conn : ℕ
  phase : Phase
  reads : List SockRecv
  deriving DecidableEq, Repr

/-- Bytes that the socket of a connection accepted out of those handed to it,
or a message of the layer above that was read on it. -/
inductive Event (Msg : Type) where
  | sent (conn : ℕ) (data : Bytes) (count : ℕ)
  | received (conn : ℕ) (m : Msg)
  deriving DecidableEq, Repr

structure World (Msg : Type) where
  socket : Option Socket
  made : ℕ
  log : List (Event Msg)
  deriving DecidableEq, Repr

def World.start (Msg : Type) : World Msg := ⟨none, 0, []⟩

structure CloseEnv where
  peek : Peek
  shutdown : Bool
  deriving DecidableEq, Repr

structure OpenEnv where
  bind : Bool
  connect : Bool
  reads : List SockRecv
  deriving DecidableEq, Repr

variable {Msg : Type}

abbrev Tcp (Msg α : Type) : Type := Prog (World Msg) PyError α

/-- `open`: the socket is assigned before `bind` can fail. -/
def tcpOpen (env : OpenEnv) : Tcp Msg Bool := do
  Prog.modify fun w => { w with socket := some ⟨w.made, .bound, []⟩, made := w.made + 1 }
  if env.bind then return true else Prog.raise .osError

def tcpConnect (env : OpenEnv) : Tcp Msg Bool := fun w =>
  match w.socket with
  | none => (.error .attributeError, w)
  | some k =>
    if k.phase = .bound ∧ env.connect = true then
      (.ok true, { w with socket := some ⟨k.conn, .connected, env.reads⟩ })
    else (.error .osError, w)

def tcpIsOpen (peek : Peek) (w : World Msg) : Bool :=
  match w.socket with
  | none => false
  | some k =>
    match k.phase, peek with
    | .connected, .data b => !b.isEmpty
    | .connected, .wouldBlock => true
    | .connected, .timedOut => true
    | _, _ => false

theorem tcpIsOpen_connected (peek : Peek) (w : World Msg) (h : tcpIsOpen peek w = true) :
    ∃ conn reads, w.socket = some ⟨conn, .connected, reads⟩ := by
  unfold tcpIsOpen at h
  rcases hk : w.socket with _ | ⟨conn, phase, reads⟩
  · simp [hk] at h
  · cases phase with
    | connected => exact ⟨conn, reads, rfl⟩
    | bound => simp [hk] at h
    | closed => simp [hk] at h

theorem tcpIsOpen_again (peek : Peek) (w t : World Msg) (h : tcpIsOpen peek w = true) (conn : ℕ)
    (reads : List SockRecv) (ht : t.socket = some ⟨conn, .connected, reads⟩) :
    tcpIsOpen peek t = true := by
  obtain ⟨conn', reads', hw⟩ := tcpIsOpen_connected peek w h
  simpa only [tcpIsOpen, hw, ht] using h

def shutdown (ok : Bool) : Tcp Msg Unit :=
  if ok then pure () else Prog.raise .osError

def closeSocket : Tcp Msg Unit := fun w =>
  match w.socket with
  | none => (.error .attributeError, w)
  | some k => (.ok (), { w with socket := some { k with phase := .closed } })

def tcpClose (env : CloseEnv) : Tcp Msg Bool := do
  let w ← Prog.get
  if tcpIsOpen env.peek w then shutdown env.shutdown else pure ()
  closeSocket
  return true

/-- `send`: the socket accepts part of the data, or raises and 0 is returned. -/
def tcpSend (data : Bytes) (accepted : Option ℕ) : Tcp Msg ℕ := fun w =>
  match w.socket, accepted with
  | some k, some n =>
    if k.phase = .connected then
      (.ok (min n data.length), { w with log := .sent k.conn data (min n data.length) :: w.log })
    else (.ok 0, w)
  | _, _ => (.ok 0, w)

theorem tcpSend_connected (data : Bytes) (n conn : ℕ) (reads : List SockRecv) (w : World Msg)
    (h : w.socket = some ⟨conn, .connected, reads⟩) :
    tcpSend data (some n) w = (.ok (min n data.length),
      { w with log := .sent conn data (min n data.length) :: w.log }) := by
  simp [tcpSend, h]

theorem tcpSend_socket (data : Bytes) (accepted : Option ℕ) (w : World Msg) :
    ∃ n t, tcpSend data accepted w = (.ok n, t) ∧ t.socket = w.socket := by
  rcases hk : w.socket with _ | ⟨conn, phase, reads⟩
  · exact ⟨0, w, by simp [tcpSend, hk], hk⟩
  · cases accepted with
    | none => exact ⟨0, w, by simp [tcpSend, hk], hk⟩
    | some n =>
      cases phase with
      | bound => exact ⟨0, w, by simp [tcpSend, hk], hk⟩
      | closed => exact ⟨0, w, by simp [tcpSend, hk], hk⟩
      | connected => exact ⟨_, _, tcpSend_connected data n conn reads w hk, hk⟩

/-- `recv` by what the socket answers. -/
def tcpRecv : SockRecv → Except PyError Bytes
  | .notReady => .ok []
  | .data b => .ok b
  | .reset => .ok []
  | .timedOut => .ok []
  | .otherError => .error .osError

end InVehicle.TcpSocket
