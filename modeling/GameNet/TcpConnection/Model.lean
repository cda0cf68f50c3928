import Mathlib.Data.Nat.Bitwise
import GameNet.Machine
import GameNet.Types

/- TcpConnection on its owner loop and on other threads (`TcpConnection.cc`,
   `ConnectionBackpressureController.cc`; non-Windows build).

   Every thread is a stack of operations. An operation makes at most one access to a
   word that threads share (`pendingOutputBytes_`, the request flags, `state_`,
   `closeInfoBits_`, the overload latch, the lifecycle source, the functor queue) and
   is replaced by the operations that follow it, so that any interleaving of the
   threads' accesses is a run. The owner thread holds one stack for the event it is
   handling; a user callback is an operation that stays on top while the user code's
   own calls run above it. Other threads have one stack for each call they make.

   The answers of the kernel, of the upper memory budgets and of the owner's executor
   come with the step. A buffered byte of the input is named by its position in the
   peer's stream. Counters that nothing reads (the peak and the rejected reservations,
   dropped notifications) and the allocation failures of the payload copies are left
   out; a fatal log line is a step that is not possible. -/
namespace GameNet.TcpConnection

/-! ## The output word -/

def kOutputAdmissionSealedBit : Nat := 2 ^ 63
def kOutputByteCountMask : Nat := kOutputAdmissionSealedBit - 1

/-- Whether the seal bit of `pendingOutputBytes_` is set. -/
def isSealed (w : Nat) : Bool := w &&& kOutputAdmissionSealedBit != 0

/-- The byte count of `pendingOutputBytes_`. -/
def byteCount (w : Nat) : Nat := w &&& kOutputByteCountMask

/-- `fetch_or` of the seal bit. -/
def sealOutput (w : Nat) : Nat := w ||| kOutputAdmissionSealedBit

/-- `fetch_sub` on a 64-bit word. -/
def fetchSub (w n : Nat) : Nat := (w + (2 ^ 64 - n)) % 2 ^ 64

/-! ## Enumerations and options -/

inductive StateE where
  | kConnecting
  | kConnected
  | kDisconnecting
  | kDisconnected
  deriving DecidableEq, Repr

inductive CloseReason where
  | peerEof
  | reset
  | connectTimeout
  | inputLimit
  | outputOverload
  | admissionPolicy
  | gracefulShutdown
  | forcedShutdown
  | callbackFailure
  | internalError
  deriving DecidableEq, Repr

structure CloseInfo where
  reason : CloseReason := .internalError
  nativeError : Nat := 0
  deriving DecidableEq, Repr

/-- `TcpConnectionClosePhase`; a drain of completions exists on Windows only. -/
inductive ClosePhase where
  | opened
  | closing
  | socketClosed
  | closed
  deriving DecidableEq, Repr

inductive TcpSendResult where
  | accepted
  | closed
  | overloaded
  | ownerUnavailable
  | loopOverloaded
  | serverOverloaded
  | globalOverloaded
  | schedulingQueueFull
  | ownerShutdown
  deriving DecidableEq, Repr

/-- The user code that the connection calls: the callbacks, and the observer of their
    exceptions. -/
inductive CallbackSource where
  | established
  | message
  | disconnected
  | closeInfo
  | close
  | destroyed
  | writeComplete
  | highWaterMark
  | exceptionObserver
  deriving DecidableEq, Repr

/-- `TcpConnectionBackpressureOptions` as `validate` accepts them, and the callbacks that are
    set before `connectEstablished`. -/
structure Options where
  lowWaterMarkBytes : Nat
  highWaterMarkBytes : Nat
  hardLimitBytes : Nat
  maxInputBufferBytes : Nat
  messageCallback : Bool := true
  writeCompleteCallback : Bool := true
  /-- `highWaterMark_` with its callback; 0 if there is none. -/
  highWaterMark : Nat := 0
  low_lt_high : lowWaterMarkBytes < highWaterMarkBytes
  high_le_hard : highWaterMarkBytes ≤ hardLimitBytes
  input_pos : 0 < maxInputBufferBytes

/-- Small limits, for runs by hand. -/
def smallConnection : Options where
  lowWaterMarkBytes := 1
  highWaterMarkBytes := 4
  hardLimitBytes := 8
  maxInputBufferBytes := 4
  low_lt_high := by decide
  high_le_hard := by decide
  input_pos := by decide

structure Payload where
  id : Nat
  data : List UInt8
  deriving DecidableEq, Repr

/-- The functors that a connection queues on its owner loop. -/
inductive QueuedFunctor where
  | send (p : Payload)
  | writeComplete
  | highWaterMark
  deriving DecidableEq, Repr

/-! ## Answers -/

inductive WriteResult where
  | wrote (n : Nat)
  | wouldBlock
  | error (err : Nat)
  deriving DecidableEq, Repr

inductive ReadResult where
  | bytes (n : Nat)
  | wouldBlock
  | error (err : Nat)
  deriving DecidableEq, Repr

/-- What the surroundings answer to an operation. -/
inductive Env where
  | nothing
  | casFails
  | budgets (refusal : Option TcpSendResult)
  | post (result : PostResult)
  | write (result : WriteResult)
  /-- The lifecycle source of a loop that has left its running phase lets its own callback
      signal. -/
  | selfSignal
  deriving DecidableEq, Repr

/-! ## Operations -/

inductive CloseKind where
  | graceful
  | force
  deriving DecidableEq, Repr

inductive Op where
  -- trySend
  | sendCheckSealed (p : Payload)
  | sendCheckGraceful (p : Payload)
  | sendCheckForce (p : Payload)
  | sendCheckConnected (p : Payload)
  | reserveLoad (p : Payload)
  | reserveOverload (p : Payload) (current : Nat)
  | reserveClear (p : Payload)
  | reserveCas (p : Payload) (current : Nat)
  | reserveBudgets (p : Payload)
  | sendDispatch (p : Payload)
  | sendFunctor (p : Payload)
  | sendReserved (p : Payload)
  | bufferRest (data : List UInt8)
  | queueWriteComplete
  | queueHighWaterMark
  | setOverloaded
  | retSend (p : Payload) (result : TcpSendResult)
  -- releaseOutputBytes
  | release (n : Nat)
  | clearOverloaded
  | signal
  -- tryShutdown and tryForceClose
  | closeCheck (kind : CloseKind)
  | closeSeal (kind : CloseKind)
  | closePublish (kind : CloseKind) (first : Bool)
  | closeFlag (kind : CloseKind) (first : Bool)
  | signalLifecycle (kind : CloseKind)
  | retClose (kind : CloseKind) (result : PostResult)
  -- driveLifecycleInLoop
  | driveForce
  | forceClose
  | clearForce
  | driveGraceful
  | driveState
  | shutdownInLoop
  | shutdownLoad
  | shutdownWrite
  | clearGraceful
  -- closing
  | publish (info : CloseInfo)
  | handleClose
  | handleError (err : Nat)
  | beginClose
  | closeState
  | closeChannel
  | closeSocket
  | finishClose
  | finishPhase
  | closeFailed
  -- connectEstablished, connectDestroyed and channel events
  | establish (attached : Bool)
  | establishState
  | destroy
  | destroyState
  | destroyDetach
  | handleRead (result : ReadResult)
  | inputLimit
  | handleWrite (result : WriteResult)
  | writeDone
  | user (source : CallbackSource)
  deriving DecidableEq, Repr

/-! ## The connection -/

/-- What was taken from producers and what the socket had been given when `shutdownWrite` was
    called. -/
structure HalfClose where
  taken : List Payload
  posted : List Payload
  written : List UInt8
  reserved : List Nat
  deriving DecidableEq, Repr

/-- The reading side: the backpressure controller (`active_`, `readingEnabled_`), the channel's
    interest and the input buffer. -/
structure ReadSide where
  active : Bool := false
  readingEnabled : Bool := true
  isReading : Bool := false
  inputBuffer : List Nat := []
  /-- The number of bytes read from the peer, and those that were in the input buffer when a
      message callback started. -/
  received : Nat := 0
  offered : List Nat := []

structure Conn where
  pendingOutputBytes : Nat := 0
  outputAdmissionOverloaded : Bool := false
  gracefulShutdownRequested : Bool := false
  forceCloseRequested : Bool := false
  state : StateE := .kConnecting
  closeInfo : Option CloseInfo := none
  closePhase : ClosePhase := .opened
  /-- Whether `lifecycleSource_` is set, with its node attached. -/
  lifecycleSource : Bool := false
  /-- Whether the lifecycle node is on the loop's dirty list. -/
  dirty : Bool := false
  functors : List QueuedFunctor := []
  /-- Whether the owner loop is in its running phase. -/
  running : Bool := true
  channelAdded : Bool := false
  channelRemoved : Bool := false
  isWriting : Bool := false
  input : ReadSide := {}
  outputBuffer : List UInt8 := []
  /-- The bytes the socket has taken. -/
  written : List UInt8 := []
  /-- The payloads that the owner loop has taken up, in that order. -/
  taken : List Payload := []
  /-- The payloads that other threads put on the owner's queue, in that order. -/
  posted : List Payload := []
  /-- The sends whose reservation step succeeded. -/
  reserved : List Nat := []
  /-- The payloads whose `trySend` returned Accepted. -/
  accepted : List Payload := []
  halfCloses : List HalfClose := []
  /-- The close requests that returned Accepted. -/
  closeAccepted : List CloseKind := []
  /-- Whether a request flag was ever set. -/
  gracefulEver : Bool := false
  forceEver : Bool := false

def Conn.socketClosed (c : Conn) : Bool :=
  match c.closePhase with
  | .socketClosed | .closed => true
  | _ => false

/-- `ConnectionBackpressureController::apply`. -/
def ReadSide.apply (o : Options) (r : ReadSide) (bufferedBytes : Nat) : ReadSide :=
  if r.active = false then r
  else if r.readingEnabled ∧ o.highWaterMarkBytes ≤ bufferedBytes then
    { r with readingEnabled := false, isReading := false }
  else if r.readingEnabled = false ∧ bufferedBytes ≤ o.lowWaterMarkBytes then
    { r with readingEnabled := true, isReading := true }
  else r

/-- The controller only moves the reading flag of an active connection. -/
theorem ReadSide.apply_active (o : Options) (r : ReadSide) (n : Nat) : (r.apply o n).active = r.active := by
  unfold ReadSide.apply
  split
  · rfl
  · split
    · rfl
    · split <;> rfl

/-- `ConnectionBackpressureController::onConnectionEstablished`. -/
def ReadSide.onConnectionEstablished (o : Options) (r : ReadSide) (bufferedBytes : Nat) :
    ReadSide :=
  { r with active := true, readingEnabled := true }.apply o bufferedBytes

/-- `ConnectionBackpressureController::onClosed`. -/
def ReadSide.onClosed (r : ReadSide) : ReadSide :=
  { r with active := false, readingEnabled := false }

/-- `Buffer::readFd`: the next `n` bytes of the peer's stream. -/
def ReadSide.readFd (r : ReadSide) (n : Nat) : ReadSide :=
  { r with inputBuffer := r.inputBuffer ++ List.range' r.received n, received := r.received + n }

/-- The message callback starts with what is in the buffer. -/
def ReadSide.offer (r : ReadSide) : ReadSide := { r with offered := r.offered ++ r.inputBuffer }

def ReadSide.retrieve (r : ReadSide) (n : Nat) : ReadSide :=
  { r with inputBuffer := r.inputBuffer.drop n }

/-- `publishCloseInfo`: the first reason stays, a missing native error is filled in. -/
def publishCloseInfo (info : CloseInfo) : Option CloseInfo → CloseInfo
  | none => info
  | some old => if old.nativeError = 0 then { old with nativeError := info.nativeError } else old

/-- The answer of `signalLifecycle` over `EventLoopLifecycleSource::signal`. -/
def Conn.signalResult (c : Conn) (self : Bool) : PostResult :=
  if c.lifecycleSource = false then .ownerUnavailable
  else if c.running ∨ self then .accepted
  else .shutdown

/-- An accepted signal puts the node on the dirty list. -/
def Conn.signalNode (c : Conn) (self : Bool) : Conn :=
  { c with dirty := c.dirty || c.signalResult self == .accepted }

/-- `tryQueueInLoop` of a notification: a refusal drops it. -/
def Conn.queueNotification (c : Conn) (f : QueuedFunctor) (result : PostResult) : Conn :=
  { c with functors := if result = .accepted ∧ c.running then c.functors ++ [f] else c.functors }

/-- `removeChannelRegistrationInLoop`. -/
def Conn.removeChannel (c : Conn) : Conn :=
  let registered := c.channelAdded && !c.channelRemoved
  { c with
    input := { c.input with isReading := c.input.isReading && !registered }
    isWriting := c.isWriting && !registered
    channelRemoved := c.channelRemoved || registered }

/-- `releaseOutputBytes`: nothing for zero bytes. -/
def releaseOps (n : Nat) : List Op := if n = 0 then [] else [.release n]

/-- `ECONNRESET` and `ECONNABORTED`. -/
def isReset (err : Nat) : Bool := err == 104 || err == 103

def Conn.remainingInputCapacity (o : Options) (c : Conn) : Nat :=
  o.maxInputBufferBytes - c.input.inputBuffer.length

/-- The answer of the executor to a cross-thread send, as `trySend` reports it. -/
def postRefusal : PostResult → TcpSendResult
  | .accepted => .accepted
  | .queueFull => .schedulingQueueFull
  | .shutdown => .ownerShutdown
  | .ownerUnavailable => .ownerUnavailable

/-! ## What an operation does -/

/-- `limit` of `tryReserveOutputBytes`. -/
def Options.outputLimit (o : Options) : Nat := min o.hardLimitBytes kOutputByteCountMask

/-- What follows the load of `current` in the loop of `tryReserveOutputBytes`. -/
def reserveLoop (o : Options) (c : Conn) (p : Payload) (current : Nat) : List Op :=
  if isSealed current then [.retSend p .closed]
  else if c.outputAdmissionOverloaded then
    if o.lowWaterMarkBytes < current then [.retSend p .overloaded] else [.reserveClear p]
  else if o.outputLimit < current ∨ o.outputLimit - current < p.data.length then
    if o.lowWaterMarkBytes < current then [.setOverloaded, .retSend p .overloaded]
    else [.retSend p .overloaded]
  else [.reserveCas p current]

/-- The operations of `trySend`. -/
def execSend (o : Options) (c : Conn) (caller : Caller) : Op → Env → Option (Conn × List Op)
  | .sendCheckSealed p, .nothing =>
    if isSealed c.pendingOutputBytes then some (c, [.retSend p .closed])
    else some (c, [.sendCheckGraceful p])
  | .sendCheckGraceful p, .nothing =>
    if c.gracefulShutdownRequested then some (c, [.retSend p .closed])
    else some (c, [.sendCheckForce p])
  | .sendCheckForce p, .nothing =>
    if c.forceCloseRequested then some (c, [.retSend p .closed])
    else some (c, [.sendCheckConnected p])
  | .sendCheckConnected p, .nothing =>
    if c.state ≠ .kConnected then some (c, [.retSend p .closed])
    else if p.data = [] then some (c, [.retSend p .accepted])
    else some (c, [.reserveLoad p])
  | .reserveLoad p, .nothing => some (c, [.reserveOverload p c.pendingOutputBytes])
  | .reserveOverload p current, .nothing => some (c, reserveLoop o c p current)
  | .setOverloaded, .nothing => some ({ c with outputAdmissionOverloaded := true }, [])
  | .reserveClear p, .nothing =>
    some ({ c with outputAdmissionOverloaded := false }, [.reserveLoad p])
  | .reserveCas p current, .nothing =>
    if c.pendingOutputBytes = current then
      some ({ c with pendingOutputBytes := current + p.data.length
                     reserved := p.id :: c.reserved }, [.reserveBudgets p])
    else some (c, [.reserveOverload p c.pendingOutputBytes])
  -- a weak compare-exchange may fail on an equal word
  | .reserveCas p _, .casFails => some (c, [.reserveOverload p c.pendingOutputBytes])
  | .reserveBudgets p, .budgets none => some (c, [.sendDispatch p])
  | .reserveBudgets p, .budgets (some r) =>
    if r = .loopOverloaded ∨ r = .serverOverloaded ∨ r = .globalOverloaded then
      some (c, [.release p.data.length, .retSend p r])
    else none
  | .sendDispatch p, .nothing =>
    if caller = .remote then none
    else if c.state = .kConnected then some (c, [.sendReserved p, .retSend p .accepted])
    else some (c, [.release p.data.length, .retSend p .closed])
  | .sendDispatch p, .post r =>
    if caller = .owner then none
    else if r ≠ .accepted then some (c, [.release p.data.length, .retSend p (postRefusal r)])
    else if c.running then
      some ({ c with functors := c.functors ++ [.send p], posted := c.posted ++ [p] },
        [.retSend p .accepted])
    else none
  | .retSend p r, .nothing =>
    some ({ c with accepted := if r = .accepted then p :: c.accepted else c.accepted }, [])
  | _, _ => none

/-- The queued send, `sendReservedInLoop` and the notifications. -/
def execOutput (o : Options) (c : Conn) : Op → Env → Option (Conn × List Op)
  | .sendFunctor p, .nothing =>
    if c.state = .kConnected ∨ c.state = .kDisconnecting then some (c, [.sendReserved p])
    else some (c, [.release p.data.length])
  | .sendReserved p, .nothing =>
    if c.state = .kDisconnected then some (c, [.release p.data.length])
    else if c.isWriting = false ∧ c.outputBuffer = [] then none
    else some ({ c with taken := c.taken ++ [p] }, [.bufferRest p.data])
  | .sendReserved p, .write r =>
    if c.state ≠ .kDisconnected ∧ c.isWriting = false ∧ c.outputBuffer = [] then
      match r with
      | .wrote n =>
        if p.data.length < n then none
        else some ({ c with taken := c.taken ++ [p], written := c.written ++ p.data.take n },
          releaseOps n ++
            if n = p.data.length then [.queueWriteComplete] else [.bufferRest (p.data.drop n)])
      | .wouldBlock => some ({ c with taken := c.taken ++ [p] }, [.bufferRest p.data])
      | .error err =>
        some ({ c with taken := c.taken ++ [p] }, [.release p.data.length, .handleError err])
    else none
  | .bufferRest data, .nothing =>
    some ({ c with outputBuffer := c.outputBuffer ++ data
                   input := c.input.apply o (c.outputBuffer.length + data.length)
                   isWriting := true },
      -- `maybeQueueHighWaterMark`
      if o.highWaterMark ≠ 0 ∧ c.outputBuffer.length < o.highWaterMark ∧
          o.highWaterMark ≤ c.outputBuffer.length + data.length then
        [.queueHighWaterMark]
      else [])
  | .queueWriteComplete, .post r =>
    if o.writeCompleteCallback then some (c.queueNotification .writeComplete r, [])
    else some (c, [])
  | .queueHighWaterMark, .post r => some (c.queueNotification .highWaterMark r, [])
  -- an underflow is fatal
  | .release n, .nothing =>
    if byteCount c.pendingOutputBytes < n then none
    else some ({ c with pendingOutputBytes := fetchSub c.pendingOutputBytes n },
      (if byteCount c.pendingOutputBytes - n ≤ o.lowWaterMarkBytes then [.clearOverloaded]
        else []) ++
      if isSealed c.pendingOutputBytes ∧ byteCount c.pendingOutputBytes = n then [.signal]
        else [])
  | .clearOverloaded, .nothing => some ({ c with outputAdmissionOverloaded := false }, [])
  | .handleWrite r, .nothing =>
    if c.isWriting = false then some (c, [])
    else
      match r with
      | .wrote n =>
        if c.outputBuffer.length < n then none
        else if n = 0 then some (c, [])
        else some ({ c with written := c.written ++ c.outputBuffer.take n
                            outputBuffer := c.outputBuffer.drop n }, [.release n, .writeDone])
      | .wouldBlock => some (c, [])
      | .error err => some (c, [.handleError err])
  | .writeDone, .nothing =>
    if c.outputBuffer = [] then
      some ({ c with input := c.input.apply o 0, isWriting := false },
        (if c.state = .kDisconnecting then [.shutdownInLoop] else []) ++ [.queueWriteComplete])
    else some ({ c with input := c.input.apply o c.outputBuffer.length }, [])
  | _, _ => none

/-- The info that a close request publishes. -/
def CloseKind.info : CloseKind → CloseInfo
  | .graceful => { reason := .gracefulShutdown }
  | .force => { reason := .forcedShutdown }

/-- A request on the owner loop is driven at once, one of another thread is signalled. -/
def CloseKind.handOver (kind : CloseKind) : Caller → List Op
  | .owner => [.driveForce, .retClose kind .accepted]
  | .remote => [.signalLifecycle kind]

/-- `tryShutdown`, `tryForceClose` and `driveLifecycleInLoop`. -/
def execRequest (c : Conn) (caller : Caller) : Op → Env → Option (Conn × List Op)
  | .closeCheck kind, .nothing =>
    if c.state = .kDisconnected then some (c, [.retClose kind .shutdown])
    else some (c, [.closeSeal kind])
  | .closeSeal kind, .nothing =>
    some ({ c with pendingOutputBytes := sealOutput c.pendingOutputBytes },
      [.closePublish kind (!isSealed c.pendingOutputBytes)])
  | .closePublish kind first, .nothing =>
    some ({ c with closeInfo := some (publishCloseInfo kind.info c.closeInfo) },
      [.closeFlag kind first])
  -- only the first request to seal asks for a half-close
  | .closeFlag .graceful first, .nothing =>
    some ({ c with gracefulShutdownRequested := c.gracefulShutdownRequested || first
                   gracefulEver := c.gracefulEver || first },
      CloseKind.graceful.handOver caller)
  | .closeFlag .force _, .nothing =>
    some ({ c with forceCloseRequested := true, forceEver := true },
      CloseKind.force.handOver caller)
  | .signalLifecycle kind, .nothing =>
    some (c.signalNode false, [.retClose kind (c.signalResult false)])
  | .retClose kind r, .nothing =>
    some ({ c with closeAccepted :=
              if r = .accepted then kind :: c.closeAccepted else c.closeAccepted }, [])
  | .signal, .nothing => some (c.signalNode false, [])
  | .signal, .selfSignal =>
    if caller = .owner then some (c.signalNode true, []) else none
  | .driveForce, .nothing =>
    if c.forceCloseRequested then some (c, [.forceClose, .clearForce, .driveGraceful])
    else some (c, [.driveGraceful])
  | .forceClose, .nothing =>
    if c.state = .kConnected ∨ c.state = .kDisconnecting then some (c, [.beginClose])
    else some (c, [])
  | .clearForce, .nothing => some ({ c with forceCloseRequested := false }, [])
  | .driveGraceful, .nothing =>
    if c.gracefulShutdownRequested then some (c, [.driveState]) else some (c, [])
  | .driveState, .nothing =>
    match c.state with
    | .kConnected => some ({ c with state := .kDisconnecting }, [.shutdownInLoop])
    | .kDisconnecting => some (c, [.shutdownInLoop])
    | _ => some (c, [])
  | .shutdownInLoop, .nothing =>
    if c.gracefulShutdownRequested ∧ c.socketClosed = false ∧ c.isWriting = false then
      some (c, [.shutdownLoad])
    else some (c, [])
  | .shutdownLoad, .nothing =>
    if byteCount c.pendingOutputBytes = 0 then some (c, [.shutdownWrite]) else some (c, [])
  | .shutdownWrite, .nothing =>
    some ({ c with halfCloses := { c with } :: c.halfCloses },
      [.clearGraceful])
  | .clearGraceful, .nothing => some ({ c with gracefulShutdownRequested := false }, [])
  | _, _ => none

/-- Closing, establishing, destroying and reading, on the owner loop. -/
def execOwner (o : Options) (c : Conn) : Op → Env → Option (Conn × List Op)
  | .publish info, .nothing =>
    some ({ c with closeInfo := some (publishCloseInfo info c.closeInfo) }, [])
  | .handleClose, .nothing =>
    if c.state = .kDisconnected then some (c, [])
    else some (c, [.publish { reason := .peerEof }, .beginClose])
  | .handleError err, .nothing =>
    some (c, [.publish ⟨if isReset err then .reset else .internalError, err⟩, .handleClose])
  | .beginClose, .nothing =>
    if c.state = .kDisconnected then some (c, [])
    else some ({ c with pendingOutputBytes := sealOutput c.pendingOutputBytes },
      [.clearGraceful, .publish { reason := .internalError }, .closeState])
  | .closeState, .nothing =>
    some ({ c with state := .kDisconnecting
                   closePhase := if c.closePhase = .opened then .closing else c.closePhase },
      [.closeChannel])
  -- the registration goes before the descriptor can be used again
  | .closeChannel, .nothing => some (c.removeChannel, [.closeSocket])
  | .closeSocket, .nothing =>
    some ({ c with input := { c.input with isReading := false }, isWriting := false
                   closePhase := .socketClosed }, [.finishClose])
  | .finishClose, .nothing =>
    if c.state = .kDisconnected then some (c, [])
    else some ({ c with state := .kDisconnected, input := c.input.onClosed, outputBuffer := [] },
      releaseOps c.outputBuffer.length ++ [.finishPhase])
  | .finishPhase, .nothing =>
    some ({ c with closePhase := .closed, input := { c.input with isReading := false }
                   isWriting := false },
      [.user .disconnected, .user .closeInfo, .user .close])
  | .closeFailed, .nothing =>
    if c.channelRemoved then some (c, []) else some (c, [.destroy])
  | .establish attached, .nothing =>
    if c.state ≠ .kConnecting ∨ c.channelRemoved then some (c, [])
    else if attached then
      some ({ c with input := { c.input with isReading := true }
                     channelAdded := true, lifecycleSource := true }, [.establishState])
    else
      -- the node was refused: the registration is undone and the exception goes on
      some ({ c with input := { c.input with isReading := false }, isWriting := false
                     channelRemoved := true, channelAdded := false, closePhase := .closed }, [])
  | .establishState, .nothing =>
    some ({ c with state := .kConnected
                   input := c.input.onConnectionEstablished o c.outputBuffer.length },
      [.user .established])
  | .destroy, .nothing =>
    some ({ c with input := c.input.onClosed, outputBuffer := [] },
      releaseOps c.outputBuffer.length ++ [.destroyState])
  | .destroyState, .nothing =>
    if c.state = .kConnected ∨ c.state = .kDisconnecting then
      some ({ c with state := .kDisconnected }, [.user .destroyed, .destroyDetach])
    else some ({ c with state := .kDisconnected }, [.destroyDetach])
  | .destroyDetach, .nothing =>
    if c.channelAdded then some ({ c.removeChannel with lifecycleSource := false }, [])
    else some ({ c with closePhase := .closed, channelRemoved := true
                        lifecycleSource := false }, [])
  | .handleRead r, .nothing =>
    if c.remainingInputCapacity o = 0 then some (c, [.inputLimit])
    else
      match r with
      | .bytes n =>
        if c.remainingInputCapacity o < n then none
        else if n = 0 then some (c, [.publish { reason := .peerEof }, .handleClose])
        else
          if c.input.readingEnabled ∧ o.messageCallback then
            some ({ c with input := (c.input.readFd n).offer }, [.user .message])
          else some ({ c with input := c.input.readFd n }, [.inputLimit])
      | .wouldBlock => some (c, [])
      | .error err => some (c, [.handleError err])
  | .inputLimit, .nothing =>
    if c.remainingInputCapacity o = 0 then
      some (c, [.publish { reason := .inputLimit }, .handleClose])
    else some (c, [])
  | _, _ => none

def exec (o : Options) (c : Conn) (caller : Caller) (op : Op) (env : Env) :
    Option (Conn × List Op) :=
  (execSend o c caller op env).orElse fun _ =>
    (execOutput o c op env).orElse fun _ =>
      (execRequest c caller op env).orElse fun _ => execOwner o c op env

/-- What follows a user callback that returned or threw. -/
def CallbackSource.next (threw : Bool) : CallbackSource → List Op
  | .established | .writeComplete | .highWaterMark =>
    if threw then
      [.user .exceptionObserver, .publish { reason := .callbackFailure }, .handleClose]
    else []
  | .message =>
    if threw then
      [.user .exceptionObserver, .publish { reason := .callbackFailure }, .handleClose]
    else [.inputLimit]
  | .disconnected | .closeInfo | .destroyed => if threw then [.user .exceptionObserver] else []
  | .close => if threw then [.user .exceptionObserver, .closeFailed] else []
  | .exceptionObserver => []

/-! ## Threads and steps -/

/-- The owner loop's stack, and one stack for each call that another thread is in. -/
structure State where
  conn : Conn := {}
  owner : List Op := []
  remotes : List (List Op) := []
  /-- The number of payloads named so far. -/
  sends : Nat := 0

inductive Call where
  | trySend (data : List UInt8)
  | tryShutdown
  | tryForceClose
  deriving DecidableEq, Repr

/-- The first operation of a call. -/
def Call.ops (sends : Nat) : Call → List Op
  | .trySend data => [.sendCheckSealed ⟨sends, data⟩]
  | .tryShutdown => [.closeCheck .graceful]
  | .tryForceClose => [.closeCheck .force]

/-- What the owner loop can start to run for the connection. -/
inductive Event where
  | connectEstablished (attached : Bool)
  | connectDestroyed
  | read (result : ReadResult)
  | write (result : WriteResult)
  | close
  | error (err : Nat)
  | lifecycle
  | functor
  deriving DecidableEq, Repr

inductive Label where
  /-- Another thread starts a call, or makes the next access of a call it is in. -/
  | call (c : Call)
  | remote (i : Nat) (env : Env)
  /-- The owner loop starts an event, or makes the next access of the one it is in. -/
  | event (e : Event)
  | own (env : Env)
  /-- Code on the owner loop calls the connection: between events or inside a callback. -/
  | ownCall (c : Call)
  | ownDestroy
  | retrieve (n : Nat)
  | ret (threw : Bool)
  | quit
  deriving DecidableEq, Repr

def QueuedFunctor.op : QueuedFunctor → Op
  | .send p => .sendFunctor p
  | .writeComplete => .user .writeComplete
  | .highWaterMark => .user .highWaterMark

/-- An event as the owner loop starts it. The channel's events need its registration to have been
    made; one that was captured before a removal can still be handled. -/
def Conn.start (c : Conn) : Event → Option (Conn × List Op)
  | .connectEstablished attached => some (c, [.establish attached])
  | .connectDestroyed => some (c, [.destroy])
  | .read r => if c.channelAdded then some (c, [.handleRead r]) else none
  | .write r => if c.channelAdded then some (c, [.handleWrite r]) else none
  | .close => if c.channelAdded then some (c, [.handleClose]) else none
  | .error err => if c.channelAdded then some (c, [.handleError err]) else none
  | .lifecycle => if c.dirty then some ({ c with dirty := false }, [.driveForce]) else none
  | .functor =>
    match c.functors with
    | [] => none
    | f :: rest => some ({ c with functors := rest }, [f.op])

/-- Whether user code runs on the owner loop: no event is in progress, or a callback of the
    connection is. -/
def userRuns : List Op → Bool
  | [] => true
  | .user _ :: _ => true
  | _ => false

def step (o : Options) (s : State) : Label → Option State
  | .call c => some { s with remotes := s.remotes ++ [c.ops s.sends], sends := s.sends + 1 }
  | .remote i env =>
    match s.remotes[i]? with
    | some (op :: rest) =>
      (exec o s.conn .remote op env).map fun r =>
        { s with conn := r.1, remotes := s.remotes.set i (r.2 ++ rest) }
    | _ => none
  | .event e =>
    if s.owner = [] then (s.conn.start e).map fun r => { s with conn := r.1, owner := r.2 }
    else none
  | .own env =>
    match s.owner with
    | op :: rest =>
      (exec o s.conn .owner op env).map fun r => { s with conn := r.1, owner := r.2 ++ rest }
    | [] => none
  | .ownCall c =>
    if userRuns s.owner then
      some { s with owner := c.ops s.sends ++ s.owner, sends := s.sends + 1 }
    else none
  | .ownDestroy => if userRuns s.owner then some { s with owner := .destroy :: s.owner } else none
  | .retrieve n =>
    match s.owner with
    | .user .message :: _ =>
      some { s with conn := { s.conn with input := s.conn.input.retrieve n } }
    | _ => none
  | .ret threw =>
    match s.owner with
    | .user source :: rest => some { s with owner := source.next threw ++ rest }
    | _ => none
  | .quit => some { s with conn := { s.conn with running := false } }

end GameNet.TcpConnection
