import GameNet.TcpConnection.Model
import GameNet.Iocp.Transport

/- TcpConnection on its owner loop in the Windows build (`TcpConnection.cc`), over the IOCP transport.

   The owner's stack is as in the model of the other build: an operation is replaced by the operations
   that follow it, and a user callback stays on top while the user's own calls run above it. What
   happens between two pieces of user code is one operation. Other threads queue sends and set the
   flags of close requests; the output accounting and the half-close, which these do not touch, are
   left to the other build's model, so that a send of another thread may be queued at any time.

   Completions are dequeued by the poll of the owner loop, between events, and their notices are
   consumed in that order, one event for each. A notice whose channel has left the loop, or entered it
   again, is not current.

   A submission on a closed socket is rejected. A channel that is given an interest while it is not in
   the loop is registered again, which for a closed socket ends the process (`iocpDie`). -/
namespace GameNet.IocpConnection
open TcpConnection (StateE CloseReason CloseInfo CloseKind ReadSide Options publishCloseInfo)
open IocpTcpTransport (Transport Submission Completion)

inductive ClosePhase where
  | opened
  | closing
  | socketClosed
  | completionDraining
  | closed
  deriving DecidableEq, Repr

/-- The user code that the connection calls. The message callback is called by `handleRead` and by
    `resumeWindowsReadAfterBackpressure`. -/
inductive CallbackSource where
  | established
  | message (resumed : Bool)
  | disconnected
  | closeInfo
  | close
  | destroyed
  | writeComplete
  | highWaterMark
  | exceptionObserver
  deriving DecidableEq, Repr

/-- The log lines that end the process. -/
inductive Fatal where
  | readStorageReleased
  | writeSegmentsDiscarded
  | writeAccountingMismatch
  | associationFailed
  deriving DecidableEq, Repr

inductive OperationKind where
  | read
  | write
  deriving DecidableEq, Repr

/-- A completion that is dequeued and not consumed, with the registration it was submitted under. -/
structure Notice where
  kind : OperationKind
  observer : Option Nat
  deriving DecidableEq, Repr

inductive QueuedFunctor where
  | send (data : List UInt8)
  | writeComplete
  | highWaterMark
  deriving DecidableEq, Repr

structure Conn where
  state : StateE := .kConnecting
  closeInfo : Option CloseInfo := none
  closePhase : ClosePhase := .opened
  admissionSealed : Bool := false
  gracefulShutdownRequested : Bool := false
  forceCloseRequested : Bool := false
  forceClosePending : Bool := false
  /-- Whether `forceCloseGuard_` holds the connection. -/
  forceCloseGuard : Bool := false
  channelAdded : Bool := false
  channelRemoved : Bool := false
  /-- The channel's own view of its registration. -/
  addedToLoop : Bool := false
  registrationGeneration : Nat := 0
  isWriting : Bool := false
  input : ReadSide := {}
  transport : Transport := {}
  readObserver : Option Nat := none
  writeObserver : Option Nat := none
  notices : List Notice := []
  functors : List QueuedFunctor := []
  fatal : Option Fatal := none
  /-- Whether a close has begun, and how often `finishClose` has ended the connection. -/
  begun : Bool := false
  finishes : Nat := 0

namespace Conn

def socketClosed (c : Conn) : Bool :=
  match c.closePhase with
  | .socketClosed | .completionDraining | .closed => true
  | _ => false

def up (c : Conn) : Bool := c.state == .kConnected || c.state == .kDisconnecting

def bufferedOutputBytesInLoop (c : Conn) : Nat := c.transport.write.bufferedWriteBytes

def remainingInputCapacity (o : Options) (c : Conn) : Nat :=
  o.maxInputBufferBytes - c.input.inputBuffer.length

def publish (c : Conn) (info : CloseInfo) : Conn :=
  { c with closeInfo := some (publishCloseInfo info c.closeInfo) }

def die (c : Conn) (f : Fatal) : Conn := { c with fatal := some f }

/-- `EventLoop::updateChannel`. -/
def updateChannel (c : Conn) : Conn :=
  if c.addedToLoop then c
  else if c.socketClosed then c.die .associationFailed
  else { c with addedToLoop := true, registrationGeneration := c.registrationGeneration + 1 }

def enableWriting (c : Conn) : Conn :=
  if c.isWriting then c else { c with isWriting := true }.updateChannel

def disableWriting (c : Conn) : Conn :=
  if c.isWriting then { c with isWriting := false }.updateChannel else c

/-- `if (!channel_->isNoneEvent()) channel_->disableAll()`. -/
def disableAll (c : Conn) : Conn :=
  if c.input.isReading ∨ c.isWriting then
    { c with input := { c.input with isReading := false }, isWriting := false }.updateChannel
  else c

/-- `removeChannelRegistrationInLoop`. -/
def removeChannel (c : Conn) : Conn :=
  if c.channelAdded = false ∨ c.channelRemoved then c
  else { c with input := { c.input with isReading := false }, isWriting := false
                addedToLoop := false, registrationGeneration := c.registrationGeneration + 1
                channelRemoved := true }

/-- `ConnectionBackpressureController::onBufferedBytesChanged`, with the channel. -/
def onBufferedBytesChanged (o : Options) (c : Conn) : Conn :=
  let input := c.input.apply o c.bufferedOutputBytesInLoop
  if input.isReading = c.input.isReading then { c with input := input }
  else { c with input := input }.updateChannel

/-- The identity that a submission captures. -/
def observer (c : Conn) : Option Nat :=
  if c.addedToLoop then some c.registrationGeneration else none

def startRead (o : Options) (c : Conn) (s : Submission) : Option (Conn × Nat) :=
  if s = .taken ∧ c.socketClosed then none
  else (c.transport.read.startRead (c.remainingInputCapacity o) s).map fun r =>
    ({ c with transport := { c.transport with read := r.1 }
              readObserver := if c.transport.read.readPending = r.1.readPending then c.readObserver
                else c.observer }, r.2)

def startWrite (c : Conn) (s : Submission) : Option (Conn × Nat) :=
  if s = .taken ∧ c.socketClosed then none
  else (c.transport.write.startWrite s).map fun r =>
    ({ c with transport := { c.transport with write := r.1 }
              writeObserver := if c.transport.write.writePending = r.1.writePending then c.writeObserver
                else c.observer }, r.2)

/-- `clearBufferedOutputInLoop`. -/
def clearBufferedOutput (c : Conn) : Conn :=
  if c.bufferedOutputBytesInLoop = 0 then c
  else
    match c.transport.write.discardBufferedWrites with
    | none => c.die .writeSegmentsDiscarded
    | some (w, discarded) =>
      if discarded ≠ c.bufferedOutputBytesInLoop then c.die .writeAccountingMismatch
      else { c with transport := { c.transport with write := w } }

end Conn

/-! ## Operations -/

inductive Op where
  | establish (attached : Bool)
  | establishRead
  -- sending
  | sendFunctor (data : List UInt8)
  | sendReserved (data : List UInt8)
  | sendStart (oldLen newLen : Nat)
  | queueWriteComplete
  | queueHighWaterMark
  -- resumeWindowsReadAfterBackpressure
  | resumeRead
  | resumeLimit
  | resumeNext
  -- consumers
  | handleRead
  | readLimit
  | readNext
  | handleWrite
  | writeNext
  | drained
  -- driveLifecycleInLoop
  | driveForce
  | forceClose
  | clearForce
  | driveGraceful
  -- closing
  | handleError (err : Nat)
  | handleClose
  | beginClose
  | closeChannel
  | closeSocket
  | finishClose
  | finishEnd (closeCallbackFailed : Bool)
  | callbackFailed
  | destroy
  | destroyDetach
  | user (source : CallbackSource)
  deriving DecidableEq, Repr

/-- What the surroundings answer to an operation. -/
inductive Env where
  | nothing
  | submit (s : Submission)
  | post (accepted : Bool)
  deriving DecidableEq, Repr

/-- `isWouldBlock` and `isInterrupted`. -/
def isTransient (err : Nat) : Bool := err == 10035 || err == 10004

/-- `WSAECONNRESET` and `WSAECONNABORTED`. -/
def isReset (err : Nat) : Bool := err == 10054 || err == 10053

/-- `closeOnInputLimitInLoop`, with what follows if the limit is not reached. -/
def Conn.inputLimit (o : Options) (c : Conn) (next : Op) : Conn × List Op :=
  if c.remainingInputCapacity o = 0 then (c.publish { reason := .inputLimit }, [.handleClose])
  else (c, [next])

/-- The channel is registered and the connection is up. -/
def Conn.establish (o : Options) (c : Conn) : Conn :=
  let c := { c with input := { c.input with isReading := true } }.updateChannel
  { c with channelAdded := true, state := .kConnected
           input := c.input.onConnectionEstablished o c.bufferedOutputBytesInLoop }

/-- `beginCloseInLoop`, up to the operations that are pending. -/
def Conn.beginClose (c : Conn) : Conn :=
  let c := (if c.closeInfo.isNone then c.publish { reason := .internalError } else c)
  { c with
    admissionSealed := true, gracefulShutdownRequested := false, state := .kDisconnecting
    closePhase := if c.closePhase = .opened then .closing else c.closePhase }

/-- The pending operations are cancelled and the channel leaves the loop, before the socket is closed. -/
def Conn.closeChannel (c : Conn) : Conn :=
  let pending := c.transport.hasPendingOperations
  { c with
    begun := true
    forceCloseGuard := c.forceCloseGuard || (pending && !c.forceClosePending)
    forceClosePending := c.forceClosePending || pending }.removeChannel

/-- The socket is closed. What is pending is as before: the poll does not run inside an event. -/
def Conn.closeSocket (c : Conn) : Conn × List Op :=
  if c.transport.hasPendingOperations then
    ({ c with closePhase := if c.socketClosed then c.closePhase else .completionDraining }, [])
  else ({ c.disableAll with closePhase := .socketClosed }, [.finishClose])

/-- `finishClose`, up to the callbacks. -/
def Conn.finishClose (c : Conn) : Conn :=
  match c.transport.read.releaseReadStorage with
  | none => c.die .readStorageReleased
  | some r =>
    let c := { c with
      state := .kDisconnected, forceClosePending := false, input := c.input.onClosed
      transport := { c.transport with read := r } }.clearBufferedOutput.disableAll
    { c with closePhase := .closed, finishes := c.finishes + 1 }

/-- `applyBackpressureInLoop`. -/
def Conn.applyBackpressureInLoop (o : Options) (c : Conn) : Conn × List Op :=
  let c' := c.onBufferedBytesChanged o
  (c', if c.input.readingEnabled = false ∧ c'.input.readingEnabled then [.resumeRead] else [])

def highWaterMarkOps (o : Options) (oldLen newLen : Nat) : List Op :=
  if o.highWaterMark ≠ 0 ∧ oldLen < o.highWaterMark ∧ o.highWaterMark ≤ newLen then
    [.queueHighWaterMark]
  else []

/-- Sending and reading. -/
def execTransfer (o : Options) (c : Conn) : Op → Env → Option (Conn × List Op)
  | .sendFunctor data, .nothing =>
    if c.up then some (c, [.sendReserved data]) else some (c, [])
  | .sendReserved data, .nothing =>
    if c.state = .kDisconnected then some (c, [])
    else
      let c' := { c with
        transport := { c.transport with write := c.transport.write.enqueueWrite data } }
      let r := c'.applyBackpressureInLoop o
      some (r.1, r.2 ++ [.sendStart c.bufferedOutputBytesInLoop c'.bufferedOutputBytesInLoop])
  | .sendStart oldLen newLen, .submit s =>
    if c.transport.write.writePending then some (c, highWaterMarkOps o oldLen newLen)
    else (c.startWrite s).map fun r =>
      if r.2 ≠ 0 then (r.1, [.handleError r.2])
      else (r.1.enableWriting, highWaterMarkOps o oldLen newLen)
  | .resumeRead, .nothing =>
    if c.up = false ∨ c.input.readingEnabled = false then some (c, [])
    else if c.input.inputBuffer ≠ [] ∧ o.messageCallback then
      some ({ c with input := c.input.offer }, [.user (.message true)])
    else some (c, [.resumeLimit])
  | .resumeLimit, .nothing => some (c.inputLimit o .resumeNext)
  | .resumeNext, .submit s =>
    if c.forceClosePending ∨ c.up = false ∨ c.input.readingEnabled = false ∨
        c.transport.read.readPending then
      some (c, [])
    else (c.startRead o s).map fun r => (r.1, if r.2 ≠ 0 then [.handleError r.2] else [])
  | .handleRead, .nothing =>
    if c.remainingInputCapacity o = 0 then some (c.publish { reason := .inputLimit }, [.handleClose])
    else
      let r := c.transport.read.completeRead
      let c := { c with transport := { c.transport with read := r.1 } }
      match r.2 with
      | .error err => some (c, if isTransient err then [] else [.handleError err])
      | .ok 0 => some (c.publish { reason := .peerEof }, [.handleClose])
      | .ok n =>
        let c := { c with input := c.input.readFd n }
        if c.input.readingEnabled ∧ o.messageCallback then
          some ({ c with input := c.input.offer }, [.user (.message false)])
        else some (c, [.readLimit])
  | .readLimit, .nothing => some (c.inputLimit o .readNext)
  | .readNext, .submit s =>
    if c.state = .kDisconnected then some (c, [])
    else if c.forceClosePending then some (c, [.handleClose])
    else if c.up ∧ c.input.readingEnabled then
      (c.startRead o s).map fun r => (r.1, if r.2 ≠ 0 then [.handleError r.2] else [])
    else some (c, [])
  | .handleWrite, .nothing =>
    if c.isWriting = false then some (c, [])
    else
      let r := c.transport.write.completeWrite
      let c := { c with transport := { c.transport with write := r.1 } }
      match r.2 with
      | .error err => some (c, if isTransient err then [] else [.handleError err])
      | .ok _ =>
        let r := c.applyBackpressureInLoop o
        some (r.1, r.2 ++ [.writeNext])
  | .writeNext, .submit s =>
    if c.state = .kDisconnected then some (c, [])
    else if c.forceClosePending then some (c, [.handleClose])
    else if c.bufferedOutputBytesInLoop = 0 then some (c.disableWriting, [.queueWriteComplete])
    else if c.transport.write.writePending then some (c, [])
    else (c.startWrite s).map fun r => (r.1, if r.2 ≠ 0 then [.handleError r.2] else [])
  | .queueWriteComplete, .post accepted =>
    some ({ c with functors :=
      if accepted ∧ o.writeCompleteCallback then c.functors ++ [.writeComplete] else c.functors }, [])
  | .queueHighWaterMark, .post accepted =>
    some ({ c with functors :=
      if accepted then c.functors ++ [.highWaterMark] else c.functors }, [])
  | _, _ => none

/-- Establishing, closing and destroying. -/
def execLifecycle (o : Options) (c : Conn) : Op → Env → Option (Conn × List Op)
  | .establish attached, .nothing =>
    if c.state ≠ .kConnecting ∨ c.channelRemoved then some (c, [])
    else if attached then some (c.establish o, [.establishRead])
    else
      -- the node was refused: the registration is undone and the exception goes on
      some ({ c with channelRemoved := true, closePhase := .closed
                     registrationGeneration := c.registrationGeneration + 2 }, [])
  | .establishRead, .submit s =>
    if c.input.readingEnabled then
      (c.startRead o s).map fun r =>
        (r.1, if r.2 ≠ 0 then [.handleError r.2] else [.user .established])
    else some (c, [.user .established])
  | .drained, .nothing =>
    if c.forceClosePending ∧ c.transport.hasPendingOperations = false then some (c, [.beginClose])
    else some (c, [])
  | .driveForce, .nothing =>
    if c.forceCloseRequested then some (c, [.forceClose, .clearForce, .driveGraceful])
    else some (c, [.driveGraceful])
  | .forceClose, .nothing => if c.up then some (c, [.beginClose]) else some (c, [])
  | .clearForce, .nothing => some ({ c with forceCloseRequested := false }, [])
  | .driveGraceful, .nothing =>
    if c.gracefulShutdownRequested ∧ c.state = .kConnected then
      some ({ c with state := .kDisconnecting }, [])
    else some (c, [])
  | .handleError err, .nothing =>
    some (c.publish ⟨if isReset err then .reset else .internalError, err⟩, [.handleClose])
  | .handleClose, .nothing =>
    if c.state = .kDisconnected then some (c, [])
    else some (c.publish { reason := .peerEof }, [.beginClose])
  | .beginClose, .nothing =>
    if c.state = .kDisconnected then some (c, []) else some (c.beginClose, [.closeChannel])
  | .closeChannel, .nothing => some (c.closeChannel, [.closeSocket])
  | .closeSocket, .nothing => some c.closeSocket
  | .finishClose, .nothing =>
    if c.state = .kDisconnected then some (c, [])
    else some (c.finishClose, [.user .disconnected, .user .closeInfo, .user .close])
  | .finishEnd failed, .nothing =>
    some ({ c with forceCloseGuard := false },
      if failed ∧ c.channelRemoved = false then [.destroy] else [])
  | .callbackFailed, .nothing => some (c.publish { reason := .callbackFailure }, [.handleClose])
  | .destroy, .nothing =>
    let c := { c with input := c.input.onClosed }.clearBufferedOutput
    some ({ c with state := .kDisconnected },
      if c.up then [.user .destroyed, .destroyDetach] else [.destroyDetach])
  | .destroyDetach, .nothing =>
    if c.channelAdded then some (c.removeChannel, [])
    else some ({ c with closePhase := .closed, channelRemoved := true }, [])
  | _, _ => none

def exec (o : Options) (c : Conn) (op : Op) (env : Env) : Option (Conn × List Op) :=
  (execTransfer o c op env).orElse fun _ => execLifecycle o c op env

/-- What follows a user callback that returned or threw. -/
def CallbackSource.next (threw : Bool) : CallbackSource → List Op
  | .established | .writeComplete | .highWaterMark =>
    if threw then [.user .exceptionObserver, .callbackFailed] else []
  | .message resumed =>
    if threw then [.user .exceptionObserver, .callbackFailed]
    else if resumed then [.resumeLimit] else [.readLimit]
  | .disconnected | .closeInfo | .destroyed => if threw then [.user .exceptionObserver] else []
  | .close => if threw then [.user .exceptionObserver, .finishEnd true] else [.finishEnd false]
  | .exceptionObserver => []

/-! ## Steps -/

/-- The callbacks among operations. -/
def callbacks (l : List Op) : List CallbackSource :=
  l.filterMap fun
    | .user source => some source
    | _ => none

structure State where
  conn : Conn := {}
  owner : List Op := []
  /-- The callbacks that the owner has put on its stack, the oldest first. -/
  calls : List CallbackSource := []

inductive Event where
  | connectEstablished (attached : Bool)
  | connectDestroyed
  | consume
  | lifecycle
  | functor
  deriving DecidableEq, Repr

inductive Label where
  /-- Another thread has queued a send, or asks for a close. -/
  | post (data : List UInt8)
  | request (kind : CloseKind)
  /-- The poll dequeues the completion of an operation. -/
  | dequeue (kind : OperationKind) (result : Completion)
  | event (e : Event)
  | own (env : Env)
  /-- Code on the owner loop calls the connection: between events or inside a callback. -/
  | ownSend (data : List UInt8)
  | ownClose (kind : CloseKind)
  | ownDestroy
  | retrieve (n : Nat)
  | ret (threw : Bool)
  deriving DecidableEq, Repr

def QueuedFunctor.op : QueuedFunctor → Op
  | .send data => .sendFunctor data
  | .writeComplete => .user .writeComplete
  | .highWaterMark => .user .highWaterMark

/-- `completionObserverCurrent`. -/
def Conn.current (c : Conn) (n : Notice) : Bool :=
  c.addedToLoop && n.observer == some c.registrationGeneration

/-- The notice is consumed: the completion flag is reset and the consumer is called. -/
def Conn.consume (c : Conn) (n : Notice) (rest : List Notice) : Conn × List Op :=
  match n.kind with
  | .read =>
    ({ c with notices := rest, transport := { c.transport with read := c.transport.read.consume } },
      if c.current n then [.handleRead] else [.drained])
  | .write =>
    ({ c with notices := rest, transport := { c.transport with write := c.transport.write.consume } },
      if c.current n then [.handleWrite] else [.drained])

/-- An event as the owner loop starts it. -/
def Conn.start (c : Conn) : Event → Option (Conn × List Op)
  | .connectEstablished attached => some (c, [.establish attached])
  | .connectDestroyed => some (c, [.destroy])
  | .consume =>
    match c.notices with
    | [] => none
    | n :: rest => some (c.consume n rest)
  | .lifecycle => if c.channelAdded then some (c, [.driveForce]) else none
  | .functor =>
    match c.functors with
    | [] => none
    | f :: rest => some ({ c with functors := rest }, [f.op])

/-- A close request, up to the drive. -/
def Conn.request (c : Conn) (kind : CloseKind) : Conn :=
  { c.publish kind.info with
    admissionSealed := true
    gracefulShutdownRequested :=
      c.gracefulShutdownRequested || (kind == .graceful && !c.admissionSealed)
    forceCloseRequested := c.forceCloseRequested || kind == .force }

/-- `observeTerminal`, with the notice. -/
def Conn.dequeue (c : Conn) (result : Completion) : OperationKind → Option Conn
  | .read => (c.transport.read.observeTerminal result).map fun r =>
      { c with transport := { c.transport with read := r }
               notices := c.notices ++ [⟨.read, c.readObserver⟩] }
  | .write => (c.transport.write.observeTerminal result).map fun w =>
      { c with transport := { c.transport with write := w }
               notices := c.notices ++ [⟨.write, c.writeObserver⟩] }

/-- Whether user code runs on the owner loop. -/
def userRuns : List Op → Bool
  | [] => true
  | .user _ :: _ => true
  | _ => false

/-- The owner puts operations on its stack; a process that has ended runs nothing. -/
def State.push (s : State) (c : Conn) (news rest : List Op) : State :=
  let news := if c.fatal.isSome then [] else news
  { conn := c, owner := news ++ rest, calls := s.calls ++ callbacks news }

def step (o : Options) (s : State) (l : Label) : Option State :=
  if s.conn.fatal.isSome then none
  else
    match l with
    | .post data =>
      if data = [] then none
      else some { s with conn := { s.conn with functors := s.conn.functors ++ [.send data] } }
    | .request kind =>
      if s.conn.state = .kDisconnected then none else some { s with conn := s.conn.request kind }
    | .dequeue kind result =>
      if s.owner = [] then (s.conn.dequeue result kind).map fun c => { s with conn := c } else none
    | .event e =>
      if s.owner = [] then (s.conn.start e).map fun r => s.push r.1 r.2 [] else none
    | .own env =>
      match s.owner with
      | op :: rest => (exec o s.conn op env).map fun r => s.push r.1 r.2 rest
      | [] => none
    | .ownSend data =>
      if userRuns s.owner ∧ data ≠ [] ∧ s.conn.state = .kConnected ∧ s.conn.admissionSealed = false then
        some (s.push s.conn [.sendReserved data] s.owner)
      else none
    | .ownClose kind =>
      if userRuns s.owner ∧ s.conn.state ≠ .kDisconnected then
        some (s.push (s.conn.request kind) [.driveForce] s.owner)
      else none
    | .ownDestroy => if userRuns s.owner then some (s.push s.conn [.destroy] s.owner) else none
    | .retrieve n =>
      match s.owner with
      | .user (.message _) :: _ =>
        some { s with conn := { s.conn with input := s.conn.input.retrieve n } }
      | _ => none
    | .ret threw =>
      match s.owner with
      | .user source :: rest => some (s.push s.conn (source.next threw) rest)
      | _ => none

end GameNet.IocpConnection
