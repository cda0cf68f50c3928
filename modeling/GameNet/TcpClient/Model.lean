import GameNet.Connector.Model

/- TcpClient (`TcpClient.cc`): one connector, one connection, and requests to connect, disconnect
   and stop from any thread.

   The owner thread is a stack of frames, as in the model of the connector, whose frames are among
   them. A frame is one stretch of the source between two places where another thread may come in:
   the admission mutex, the loads of `activeConnectRequestId_`, and the callbacks of the user. The
   events of the connector are handled in the step that emits them, as the handler runs no foreign
   code; only a terminal failure goes on with a frame of its own.

   Of a connection only the state matters that the client looks at. What the user does in a callback,
   what other threads ask for, how a hand-over ends and what the sockets answer is in the labels. A
   post may be refused. Metrics, addresses, names and the destruction of the client are left out. -/
namespace GameNet.TcpClient

open Connector (Core ConnectorEvent)

/-- The operations of the facade and of `TcpClientControl`. -/
inductive Op where
  | connect
  | disconnect
  | stop
  deriving DecidableEq, Repr

inductive ConnState where
  | connected
  | disconnecting
  | disconnected
  deriving DecidableEq, Repr

structure Conn where
  id : Nat
  state : ConnState := .connected
  deriving DecidableEq, Repr

/-- A functor in the queue of the owner loop. -/
inductive Task where
  | connect (requestId generation : Nat)
  | disconnect (generation : Nat)
  | stop (generation : Nat)
  | setRetry (enabled : Bool)
  deriving DecidableEq, Repr

inductive Frame where
  | connector (frame : Connector.Frame)
  /-- A callback of the user runs. -/
  | user
  | driveControl
  /-- `driveControlInLoop` has taken an operation. -/
  | control (op : Op)
  | connectInLoop (requestId generation : Nat)
  /-- `connectInLoop` after the check of the generation -/
  | connectRequest (requestId : Nat)
  | disconnectInLoop (generation : Nat)
  | disconnectLatest
  | stopInLoop (generation : Nat)
  | stopLatest
  | finishTerminalConnectFailure (requestId : Nat)
  | newConnection
  /-- `newConnection` after the load of the active request -/
  | establish (requestId : Nat)
  | removeConnection (id : Nat)
  /-- `removeConnection`, at its three looks at the active request -/
  | reconnect (requestId pendingReconnectRequestId : Nat)
  | reestablish (requestId : Nat)
  | release (requestId : Nat)
  deriving DecidableEq, Repr

structure State where
  connector : Core
  stack : List Frame := []
  queue : List Task := []
  /-- The mailbox of `TcpClientControl`, and whether its lifecycle node is dirty. -/
  pendingOperation : Option Op := none
  dirty : Bool := false
  retry : Bool
  connect : Bool := false
  nextConnectRequestId : Nat := 1
  activeConnectRequestId : Nat := 0
  nextOperationGeneration : Nat := 1
  latestAcceptedOperationGeneration : Nat := 0
  connectorRequestId : Nat := 0
  connectionRequestId : Nat := 0
  pendingReconnectRequestId : Nat := 0
  pendingTerminalConnectRequestId : Nat := 0
  connection : Option Conn := none
  nextConnId : Nat := 1
  /-- The new-connection callback threw. -/
  threw : Bool := false
  /-- An assertion failed. -/
  fatal : Bool := false
  /-- The operation of the latest accepted generation. -/
  latest : Option Op := none
  /-- The operation whose call was accepted last, through `TcpClientControl` or not. -/
  accepted : Option Op := none
  deriving DecidableEq, Repr

/-- How `newConnection` ends. -/
inductive Handover where
  | addressFailed
  /-- The connection cannot be made, before or after it was published. -/
  | threw (published : Bool)
  | established
  deriving DecidableEq, Repr

/-- What `TcpConnection::shutdown` does to the connection on the spot: nothing, a half close, or the
    close that another thread has requested. -/
inductive Shutdown where
  | none
  | halfClose
  | close
  deriving DecidableEq, Repr

/-- What the world answers to a frame. -/
structure Answer where
  connector : Connector.Answer := {}
  handover : Handover := .established
  shutdown : Shutdown := .halfClose
  deriving DecidableEq, Repr

namespace State

/-- `handleConnectorEvent`, up to the end of a terminal failure. -/
def handleConnectorEvent (s : State) : ConnectorEvent → State
  | .retryScheduled | .connectSuccess => { s with pendingTerminalConnectRequestId := 0 }
  | .terminalFailure =>
    if s.pendingTerminalConnectRequestId ≠ 0 then
      { s with stack := .finishTerminalConnectFailure s.pendingTerminalConnectRequestId :: s.stack }
    else s
  | .connectFailed | .selfConnectDetected | .connectTimeout =>
    if s.connectorRequestId = 0 then s
    else { s with pendingTerminalConnectRequestId := s.connectorRequestId }
  | .connectAttempt => s

/-- The connector goes on: its callbacks are those of the client. -/
def drive (s : State) (result : Core × List Connector.Frame) : State :=
  let s := { s with connector := result.1 }
  match result.2 with
  | .emit event :: frames =>
    { s with stack := frames.map Frame.connector ++ s.stack }.handleConnectorEvent event
  | .newConnection _ :: frames =>
    { s with stack := .newConnection :: (frames.map Frame.connector ++ s.stack) }
  | frames => { s with stack := frames.map Frame.connector ++ s.stack }

/-- `TcpConnection::finishClose`: two callbacks of the user, then the close callback. -/
def close (s : State) (conn : Conn) : State :=
  { s with
    connection := some { conn with state := .disconnected }
    stack := .user :: .user :: .removeConnection conn.id :: s.stack }

/-! ## Admission -/

/-- The connection of the active request has ended and waits for its removal. -/
def endedLifecycleAwaitingRemoval (s : State) : Bool :=
  match s.connection with
  | some conn =>
    conn.state = .disconnected && s.connectionRequestId = s.activeConnectRequestId &&
      s.pendingReconnectRequestId = 0
  | none => false

/-- An operation is accepted with a new generation. -/
def accept (s : State) (op : Op) (requestId : Nat) : State :=
  { s with
    activeConnectRequestId := requestId
    latestAcceptedOperationGeneration := s.nextOperationGeneration
    nextOperationGeneration := s.nextOperationGeneration + 1
    latest := some op
    accepted := some op }

/-- The critical section of `tryConnect`, `tryDisconnect` and `tryStop`: `submit` hands the operation
    with its generation to the owner, or refuses it. -/
def tryOperation (s : State) (op : Op) (submit : State → Task → Option State) : State :=
  let generation := s.nextOperationGeneration
  let refused := { s with nextOperationGeneration := s.nextOperationGeneration + 1 }
  match op with
  | .connect =>
    if s.activeConnectRequestId ≠ 0 ∧ s.endedLifecycleAwaitingRemoval = false then
      { s with accepted := some .connect }
    else
      let requestId := s.nextConnectRequestId
      match submit s (.connect requestId generation) with
      | some s => { s.accept .connect requestId with nextConnectRequestId := requestId + 1 }
      | none => { refused with nextConnectRequestId := requestId + 1 }
  | .disconnect =>
    match submit s (.disconnect generation) with
    | some s => s.accept .disconnect 0
    | none => refused
  | .stop =>
    match submit s (.stop generation) with
    | some s => s.accept .stop 0
    | none => refused

/-- `setRetryInLoop` -/
def setRetryInLoop (s : State) (enabled : Bool) : State :=
  { s with retry := enabled, connector := { s.connector with retryEnabled := enabled } }

/-- The owner runs a functor. -/
def run (s : State) : Task → State
  | .setRetry enabled => s.setRetryInLoop enabled
  | .connect requestId generation => { s with stack := .connectInLoop requestId generation :: s.stack }
  | .disconnect generation => { s with stack := .disconnectInLoop generation :: s.stack }
  | .stop generation => { s with stack := .stopInLoop generation :: s.stack }

/-- An operation on the owner thread runs inline. -/
def call (s : State) (op : Op) : State := s.tryOperation op fun s task => some (s.run task)

/-- An operation on another thread is posted. -/
def post (s : State) (op : Op) (refuse : Bool) : State :=
  s.tryOperation op fun s task => if refuse then none else some { s with queue := s.queue ++ [task] }

/-! ## The frames of the owner -/

/-- `connectInLoop` after its checks -/
def connectRequest (s : State) (requestId : Nat) : State :=
  let s := { s with connect := true }
  match s.connection with
  | some conn =>
    if conn.state = .connected then
      { s with connectionRequestId := requestId, pendingReconnectRequestId := 0 }
    else { s with pendingReconnectRequestId := requestId }
  | none =>
    let s := { s with connectorRequestId := requestId }
    if s.connector.state = .connected then s.drive s.connector.restart
    else s.drive s.connector.start

def disconnectLatest (s : State) (shutdown : Shutdown) : State :=
  let s := { s with connect := false }
  match s.connection with
  | some conn =>
    if conn.state = .disconnected then s
    else match shutdown with
      | .none => s
      | .halfClose => { s with connection := some { conn with state := .disconnecting } }
      | .close => s.close conn
  | none => { s with connector := s.connector.stop }

def finishTerminalConnectFailure (s : State) (requestId : Nat) : State :=
  if s.pendingTerminalConnectRequestId ≠ requestId then s
  else
    let s := { s with
      pendingTerminalConnectRequestId := 0
      connectorRequestId := if s.connectorRequestId = requestId then 0 else s.connectorRequestId }
    if s.activeConnectRequestId = requestId then
      { s with activeConnectRequestId := 0, stack := .user :: s.stack }
    else s

def newConnection (s : State) : State :=
  let requestId := s.connectorRequestId
  if requestId = 0 ∨ s.activeConnectRequestId ≠ requestId then { s with threw := false }
  else { s with stack := .establish requestId :: s.stack }

def establish (s : State) (requestId : Nat) : Handover → State
  | .addressFailed =>
    let s := { s with threw := false }
    if s.retry ∧ s.connect then
      let s := { s with connectorRequestId := requestId }
      s.drive s.connector.restart
    else
      { s with
        pendingTerminalConnectRequestId := requestId
        stack := .finishTerminalConnectFailure requestId :: s.stack }
  | .threw published =>
    { s with
      threw := true
      connectionRequestId := if published then 0 else s.connectionRequestId
      pendingReconnectRequestId := if published then 0 else s.pendingReconnectRequestId
      pendingTerminalConnectRequestId := requestId
      stack := .finishTerminalConnectFailure requestId :: s.stack }
  | .established =>
    { s with
      threw := false
      connection := some { id := s.nextConnId }
      nextConnId := s.nextConnId + 1
      connectionRequestId := requestId
      pendingReconnectRequestId := 0
      stack := .user :: s.stack }

def removeConnection (s : State) (id : Nat) : State :=
  { s with
    fatal := s.fatal || decide (s.connection.map Conn.id ≠ some id)
    connection := none
    connectionRequestId := 0
    pendingReconnectRequestId := 0
    stack := .reconnect s.connectionRequestId s.pendingReconnectRequestId :: s.stack }

def reconnect (s : State) (requestId pendingReconnectRequestId : Nat) : State :=
  if pendingReconnectRequestId ≠ 0 ∧ s.activeConnectRequestId = pendingReconnectRequestId ∧
      s.connect then
    let s := { s with connectorRequestId := pendingReconnectRequestId }
    s.drive s.connector.restart
  else { s with stack := .reestablish requestId :: s.stack }

def reestablish (s : State) (requestId : Nat) : State :=
  if requestId ≠ 0 ∧ s.activeConnectRequestId = requestId ∧ s.retry ∧ s.connect then
    let s := { s with connectorRequestId := requestId }
    s.drive s.connector.restart
  else { s with stack := .release requestId :: s.stack }

def release (s : State) (requestId : Nat) : State :=
  if s.activeConnectRequestId = requestId then { s with activeConnectRequestId := 0 } else s

/-- The frame on the top goes on; `s` has the stack below it. -/
def resume (s : State) (answer : Answer) : Frame → State
  | .connector frame =>
    let answer := match frame with
      | .settle _ => { answer.connector with threw := s.threw }
      | _ => answer.connector
    s.drive (s.connector.resume answer frame)
  | .user => s
  | .driveControl =>
    match s.pendingOperation with
    | some op => { s with pendingOperation := none, stack := .control op :: s.stack }
    | none => s
  | .control op => { s.call op with accepted := s.accepted }
  | .connectInLoop requestId generation =>
    if s.latestAcceptedOperationGeneration ≠ generation then s
    else { s with stack := .connectRequest requestId :: s.stack }
  | .connectRequest requestId =>
    if s.activeConnectRequestId ≠ requestId then s else s.connectRequest requestId
  | .disconnectInLoop generation =>
    if s.latestAcceptedOperationGeneration ≠ generation then s
    else { s with stack := .disconnectLatest :: s.stack }
  | .disconnectLatest => s.disconnectLatest answer.shutdown
  | .stopInLoop generation =>
    if s.latestAcceptedOperationGeneration ≠ generation then s
    else { s with stack := .stopLatest :: s.stack }
  | .stopLatest => { s with connect := false, connector := s.connector.stop }
  | .finishTerminalConnectFailure requestId => s.finishTerminalConnectFailure requestId
  | .newConnection => s.newConnection
  | .establish requestId => s.establish requestId answer.handover
  | .removeConnection id => s.removeConnection id
  | .reconnect requestId pendingReconnectRequestId =>
    s.reconnect requestId pendingReconnectRequestId
  | .reestablish requestId => s.reestablish requestId
  | .release requestId => s.release requestId

end State

/-! ## The machine -/

inductive Label where
  /-- The owner thread, in a callback of the user or between two events. -/
  | call (op : Op)
  | setRetry (enabled : Bool)
  /-- Another thread. -/
  | post (op : Op) (refuse : Bool)
  | postSetRetry (enabled : Bool)
  /-- `TcpClientControl`, on any thread. -/
  | control (op : Op)
  /-- The connection is half closed, or closed. -/
  | shutdownConnection
  | closeConnection
  /-- The owner loop: the lifecycle node, a functor, events of the connector. -/
  | driveControl
  | run
  | writable (channel : Connector.Channel) (probe : Connector.Probe)
  | error (channel : Connector.Channel)
  | fire (timer : Connector.Timer)
  | resume (answer : Answer)
  deriving DecidableEq, Repr

/-- Code of the user may run on the owner thread. -/
def idle : List Frame → Bool
  | [] | .user :: _ => true
  | _ => false

def step (s : State) : Label → Option State
  | .call op => if idle s.stack then some (s.call op) else none
  | .setRetry enabled => if idle s.stack then some (s.setRetryInLoop enabled) else none
  | .post op refuse => some (s.post op refuse)
  | .postSetRetry enabled => some { s with queue := s.queue ++ [.setRetry enabled] }
  | .control op => some { s with pendingOperation := some op, dirty := true, accepted := some op }
  | .shutdownConnection =>
    s.connection.bind fun conn =>
      if idle s.stack ∧ conn.state = .connected then
        some { s with connection := some { conn with state := .disconnecting } }
      else none
  | .closeConnection =>
    s.connection.bind fun conn =>
      if idle s.stack ∧ conn.state ≠ .disconnected then some (s.close conn) else none
  | .driveControl =>
    if s.stack = [] ∧ s.dirty then some { s with dirty := false, stack := [.driveControl] } else none
  | .run =>
    match s.stack, s.queue with
    | [], task :: queue => some ({ s with queue := queue }.run task)
    | _, _ => none
  | .writable channel probe =>
    if s.stack = [] ∧ channel ∈ s.connector.registered then
      some (s.drive (s.connector.handleWrite channel.generation probe))
    else none
  | .error channel =>
    if s.stack = [] ∧ channel ∈ s.connector.registered then
      some (s.drive (s.connector.handleError channel.generation))
    else none
  | .fire timer =>
    if s.stack = [] ∧ timer ∈ s.connector.timers then some (s.drive (s.connector.fire timer))
    else none
  | .resume answer =>
    match s.stack with
    | [] => none
    | frame :: rest => some ({ s with stack := rest }.resume answer frame)

/-- A client that was just made. -/
def Init (s : State) : Prop :=
  ∃ retry connectTimeout, s = { connector := { retryEnabled := retry, connectTimeout }, retry }

end GameNet.TcpClient
