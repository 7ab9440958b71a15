import InVehicle.BuildIp
import InVehicle.PyNumbers
import InVehicle.RawSockets
import InVehicle.SystemCalls
import InVehicle.TextCodecs

/-!
# The multicast communicator

`MulticastCommunicator` keeps one socket that has joined the group, to receive on, and
one that is bound to the source address, to send on. A socket is known by the length of
the log at its creation.
-/

set_option autoImplicit false

namespace InVehicle.Multicast
open InVehicle.BuildIp InVehicle.Effect InVehicle.SystemCalls
open InVehicle.RawSockets (IpVersion)
open InVehicle.TextCodecs (Text)

def version : IpAddress → IpVersion
  | .ipv4 _ => .ipv4
  | .ipv6 _ => .ipv6

/-- `is_multicast`: 224.0.0.0/4, and ff00::/8. -/
def isMulticast : IpAddress → Bool
  | .ipv4 address => address.value / 2 ^ 28 = 14
  | .ipv6 address => address.value / 2 ^ 120 = 255

/-! ## What the system is asked for -/

inductive SocketOption where
  | reuseAddr
  | reusePort
  | addMembership (group localAddr : IpAddress)
  | joinGroup (group : IpAddress) (interfaceIndex : Option ℕ)
  | multicastIf4 (localAddr : IpAddress)
  | multicastIf6 (interfaceIndex : Option ℕ)
  | multicastTtl (hops : ℕ)
  | multicastHops (hops : ℕ)
  deriving DecidableEq, Repr

/-- The address of `sendto`; one of version 6 also has flow information and a scope. -/
inductive Target where
  | pair (address : IpAddress) (port : ℤ)
  | quadruple (address : IpAddress) (port : ℤ) (flowInfo : ℕ) (scopeId : Option ℕ)
  deriving DecidableEq, Repr

inductive SystemCall where
  | ifNametoindex (interfaceName : Option Text)
  | socket (k : ℕ) (family : IpVersion)
  | setsockopt (k : ℕ) (option : SocketOption)
  | bind (k : ℕ) (address : IpAddress) (port : ℤ)
  | setNonblocking (k : ℕ)
  | sendto (k : ℕ) (data : Bytes) (target : Target)
  | select (k : ℕ) (timeout : ℚ)
  | recv (k : ℕ) (size : ℤ)
  | recvfrom (k : ℕ) (size : ℤ)
  | close (k : ℕ)
  deriving DecidableEq, Repr

inductive SocketError where
  | blockingIo
  | timeout
  | runtime
  | other
  deriving DecidableEq, Repr

/-- `select` tells whether the socket is ready. -/
def SystemCall.Reply : SystemCall → Type
  | .ifNametoindex _ => ℕ
  | .sendto _ _ _ => ℕ
  | .select _ _ => Bool
  | .recv _ _ => Bytes
  | .recvfrom _ _ => Bytes × IpAddress
  | _ => Unit

abbrev sockets : Interface := ⟨SystemCall, SystemCall.Reply, SocketError⟩

def SystemCall.object : SystemCall → Option ℕ
  | .ifNametoindex _ => none
  | .socket k _ => some k
  | .setsockopt k _ => some k
  | .bind k _ _ => some k
  | .setNonblocking k => some k
  | .sendto k _ _ => some k
  | .select k _ => some k
  | .recv k _ => some k
  | .recvfrom k _ => some k
  | .close k => some k

/-! ## The communicator -/

/-- The fields, after `validate_destination_ip`. -/
structure MulticastCommunicator where
  sourceIp : IpAddress
  sport : ℤ
  destinationIp : IpAddress
  dport : ℤ
  interfaceName : Option Text
  destination_multicast : isMulticast destinationIp = true
  version_eq : version destinationIp = version sourceIp
  interface_named : version destinationIp = .ipv6 → interfaceName.getD [] ≠ []

def validateDestinationIp (sourceIp : IpAddress) (sport : ℤ) (destinationIp : IpAddress)
    (dport : ℤ) (interfaceName : Option Text) : Except PyError MulticastCommunicator :=
  if hmulticast : isMulticast destinationIp = true then
    if hversion : version destinationIp = version sourceIp then
      if hname : version destinationIp = .ipv6 → interfaceName.getD [] ≠ [] then
        .ok ⟨sourceIp, sport, destinationIp, dport, interfaceName, hmulticast, hversion, hname⟩
      else .error .valueError
    else .error .valueError
  else .error .valueError

structure State where
  inSocket : Option ℕ
  outSocket : Option ℕ
  interfaceIndex : Option ℕ
  openFlag : Bool
  deriving DecidableEq, Repr

def State.start : State := ⟨none, none, none, false⟩

def State.held (s : State) : List ℕ := s.inSocket.toList ++ s.outSocket.toList

def State.isOpen (s : State) : Bool := s.openFlag && s.inSocket.isSome && s.outSocket.isSome

abbrev World : Type := Traced sockets State

abbrev Program (α : Type) : Type := Prog World SocketError α

section Model
variable (os : System sockets) (hasReusePort : Bool) (c : MulticastCommunicator)

/-- What `_setup_receive_socket` asks of its socket. -/
def receiveOptions (index : Option ℕ) (k : ℕ) : List SystemCall :=
  [.setsockopt k .reuseAddr] ++
    (if hasReusePort then [.setsockopt k .reusePort] else []) ++
    [.bind k c.destinationIp c.dport,
      .setsockopt k (if version c.sourceIp = .ipv6 then .joinGroup c.destinationIp index
        else .addMembership c.destinationIp c.sourceIp),
      .setNonblocking k]

/-- What `_setup_send_socket` asks of its socket. -/
def sendOptions (index : Option ℕ) (k : ℕ) : List SystemCall :=
  [.setsockopt k .reuseAddr, .bind k c.sourceIp c.sport] ++
    (if version c.sourceIp = .ipv6 then
      [.setsockopt k (.multicastIf6 index), .setsockopt k (.multicastHops 1)]
    else [.setsockopt k (.multicastIf4 c.sourceIp), .setsockopt k (.multicastTtl 1)]) ++
    [.setNonblocking k]

def createSocket : Program ℕ := do
  let s ← Prog.get
  let _ ← perform os (.socket s.log.length (version c.sourceIp))
  return s.log.length

def lookUpInterface : Program Unit :=
  if version c.sourceIp = .ipv6 then do
    let index ← perform os (.ifNametoindex c.interfaceName)
    Prog.modify (Traced.update fun s => { s with interfaceIndex := some index })
  else pure ()

/-- The body of either setup: the new socket is at hand before anything is asked of it. -/
def setupSocket (put : ℕ → State → State) (options : Option ℕ → ℕ → List SystemCall) :
    Program Unit := do
  let k ← createSocket os c
  Prog.modify (Traced.update (put k))
  let s ← Prog.get
  performAll os (options s.state.interfaceIndex k)

def setupReceiveSocket : Program Unit :=
  setupSocket os c (fun k s => { s with inSocket := some k }) (receiveOptions hasReusePort c)

def setupSendSocket : Program Unit :=
  setupSocket os c (fun k s => { s with outSocket := some k }) (sendOptions c)

/-- `close` in `try … except: pass`. -/
def closeQuietly : Option ℕ → Program Unit
  | none => pure ()
  | some k => Prog.attempt (perform os (.close k)) fun _ => pure ()

def cleanupSockets : Program Unit := do
  let s ← Prog.get
  closeQuietly os s.state.inSocket
  Prog.modify (Traced.update fun s => { s with inSocket := none })
  closeQuietly os s.state.outSocket
  Prog.modify (Traced.update fun s => { s with outSocket := none, openFlag := false })

def setup : Program Bool := do
  lookUpInterface os c
  setupReceiveSocket os hasReusePort c
  setupSendSocket os c
  Prog.modify (Traced.update fun s => { s with openFlag := true })
  return true

def openMulticast : Program Bool :=
  Prog.attempt (setup os hasReusePort c) fun _ => do
    cleanupSockets os
    Prog.raise .runtime

def closeMulticast : Program Bool := do
  cleanupSockets os
  return true

def whenOpen {α : Type} (body : ℕ → ℕ → Option ℕ → Program α) : Program α := fun w =>
  match w.state.openFlag, w.state.inSocket, w.state.outSocket with
  | true, some i, some o => body i o w.state.interfaceIndex w
  | _, _, _ => (.error .runtime, w)

/-- `except BlockingIOError` in front of `except Exception`. -/
def handling {α : Type} (body : Program α) (blocking : Program α) : Program α :=
  Prog.attempt body fun e => if e = .blockingIo then blocking else Prog.raise .runtime

def targetAt (address : IpAddress) (index : Option ℕ) : Target :=
  match version address with
  | .ipv6 => .quadruple address c.dport 0 index
  | .ipv4 => .pair address c.dport

def sendTo (targetIp : IpAddress) (data : Bytes) : Program ℕ :=
  whenOpen fun _ o index =>
    handling (perform os (.sendto o data (targetAt c targetIp index))) (Prog.raise .runtime)

def send (data : Bytes) : Program ℕ := sendTo os c c.destinationIp data

def waitsInVain (i : ℕ) (recvTimeout : ℚ) : Program Bool :=
  if 0 < recvTimeout then do
    let ready ← perform os (.select i recvTimeout)
    return !ready
  else pure false

def recv (recvTimeout : ℚ) (size : ℤ) : Program (Option Bytes) :=
  whenOpen fun i _ _ => handling
    (do
      let inVain ← waitsInVain os i recvTimeout
      if inVain = true then return none
      else do
        let data ← perform os (.recv i size)
        return some data)
    (pure none)

/-- A wait in vain raises within the `try`, and its exception is not the one that the
handler lets through as a timeout. -/
def receiveFrom (size : ℤ) (recvTimeout : ℚ) : Program (Bytes × IpAddress) :=
  whenOpen fun i _ _ => handling
    (do
      let inVain ← waitsInVain os i recvTimeout
      if inVain = true then Prog.raise .timeout
      else perform os (.recvfrom i size))
    (Prog.raise .timeout)

inductive Call where
  | open
  | close
  | send (data : Bytes)
  | sendTo (targetIp : IpAddress) (data : Bytes)
  | recv (recvTimeout : ℚ) (size : ℤ)
  | receiveFrom (size : ℤ) (recvTimeout : ℚ)
  deriving DecidableEq, Repr

/-- The state after a call, whether it returns or raises. -/
def step (w : World) : Call → World
  | .open => (openMulticast os hasReusePort c w).2
  | .close => (closeMulticast os w).2
  | .send data => (send os c data w).2
  | .sendTo targetIp data => (sendTo os c targetIp data w).2
  | .recv recvTimeout size => (recv os recvTimeout size w).2
  | .receiveFrom size recvTimeout => (receiveFrom os size recvTimeout w).2

end Model

def World.start : World := ⟨State.start, []⟩

end InVehicle.Multicast
