import GameNet.Cursors
import GameNet.Machine

/- The io_uring completion engine (IoUringCompletionEngine.cc) and the kernel behind it.

   The engine keeps a table of operation slots. An accepted operation takes a free slot and is
   published in the submission ring under a packed identity: the slot, the slot's generation, and
   a bit that marks the completion of a cancel request. The owner's calls run over frames, so
   that the kernel can act between any two steps of a call: `io_uring_enter` consumes a prefix of
   the submission ring, a consumed request may be completed at any time and in any order, a
   receive may be written to as long as it is not completed. What a system call, the clock and
   the allocator answer are labels of the machine.

   Beside the engine's fields the books keep a history that nothing in the code reads: every
   accepted operation under a number, its token, that the slot, the requests and the completions
   carry along; the notices published and taken; the completions drained.

   Left out: the flag words of the requests, the ring's mapping and its probe, and allocation
   failures. A lease is the number of the object it holds. -/
namespace GameNet.IoUring

/-! ## Operations and their identities -/

inductive OperationKind where
  | accept | connect | receive | send
deriving DecidableEq

inductive CompletionStatus where
  | succeeded | failed | cancelled
deriving DecidableEq

inductive SubmissionResult where
  | accepted | submissionQueueFull | operationLimit | payloadTooLarge | byteLimit
  | rejectedInvalid | rejectedQuiescing | rejectedShutdown
deriving DecidableEq

inductive CancelResult where
  | accepted | alreadyRequested | submissionQueueFull | rejectedInvalid | rejectedNotSubmitted
  | rejectedShutdown
deriving DecidableEq

inductive Phase where
  | running | quiescing | shutdown
deriving DecidableEq

inductive ShutdownResult where
  | drained | timedOut
deriving DecidableEq

structure OperationIdentity where
  slot : BitVec 32 := 0
  generation : BitVec 32 := 0
deriving DecidableEq

def OperationIdentity.valid (identity : OperationIdentity) : Bool := identity.generation != 0

def kCancelCqeBit : BitVec 64 := 1#64 <<< 63
def kMaximumGeneration : BitVec 32 := 0x7fffffff
def kInvalidSocket : Int := -1

def encodeIdentity (identity : OperationIdentity) (cancel : Bool) : BitVec 64 :=
  let encoded := (identity.generation.setWidth 64 <<< 32) ||| (identity.slot.setWidth 64 + 1)
  if cancel then encoded ||| kCancelCqeBit else encoded

def decodeIdentity (value : BitVec 64) : OperationIdentity :=
  let value := value &&& ~~~kCancelCqeBit
  let encodedSlot := value.setWidth 32
  if encodedSlot = 0 then {}
  else { slot := encodedSlot - 1, generation := (value >>> 32).setWidth 32 }

def isCancelCqe (value : BitVec 64) : Bool := (value &&& kCancelCqeBit) != 0

/-! ## Options -/

structure Options where
  entries : Nat := 64
  maxOperations : Nat := 64
  maxCompletionsPerWait : Nat := 64
  maxBytesPerOperation : Nat := 64 * 1024
  maxOwnedBytes : Nat := 4 * 1024 * 1024

def kMaximumRingEntries : Nat := 4096

/-- What the constructor accepts. -/
def Options.validated (o : Options) : Bool :=
  !(o.entries == 0 || o.entries > kMaximumRingEntries || o.maxOperations == 0 ||
    o.maxOperations > 2 ^ 32 - 1 || o.maxCompletionsPerWait == 0 ||
    o.maxBytesPerOperation == 0 || o.maxOwnedBytes == 0 ||
    o.maxBytesPerOperation > o.maxOwnedBytes)

/-! ## Slots, requests and completions -/

/-- A vector's bytes and the address of its block, if it has one. -/
structure Storage where
  block : Option Nat := none
  bytes : List UInt8 := []
deriving DecidableEq

/-- `data` is written over the beginning of the storage. -/
def Storage.write (storage : Storage) (data : List UInt8) : Storage :=
  { storage with bytes := data ++ storage.bytes.drop data.length }

def sockaddrStorageSize : Nat := 128

structure Slot where
  generation : BitVec 32 := 0
  active : Bool := false
  noticePending : Bool := false
  submitted : Bool := false
  cancelQueued : Bool := false
  kind : OperationKind := .receive
  socket : Int := kInvalidSocket
  storage : Storage := {}
  lease : Option Nat := none
  peer : List UInt8 := []
  peerLength : Nat := sockaddrStorageSize
  reservedBytes : Nat := 0
  token : Nat := 0

/-- The address a request names. -/
inductive Address where
  | null
  | peer (slot : Nat)
  | block (block : Option Nat)
  | request (userData : BitVec 64)

inductive Opcode where
  | accept | connect | recv | send | asyncCancel
deriving DecidableEq

structure Sqe where
  opcode : Opcode := .accept
  fd : Int := 0
  addr : Address := .null
  off : Nat := 0
  len : Nat := 0
  userData : BitVec 64 := 0
  token : Nat := 0

structure Cqe where
  userData : BitVec 64 := 0
  res : Int := 0
  token : Nat := 0

structure PendingSubmission where
  userData : BitVec 64
  cancel : Bool

structure Notice where
  identity : OperationIdentity
  kind : OperationKind
  status : CompletionStatus
  bytesTransferred : Nat
  nativeError : Int
  acceptedSocket : Int
  payload : Storage
  lease : Option Nat
  reservedBytes : Nat
  token : Nat
deriving DecidableEq

/-- An accepted operation, as its caller knows it. -/
structure Operation where
  identity : OperationIdentity
  kind : OperationKind
  storage : Storage
  lease : Option Nat
  reservedBytes : Nat

def Operation.write (data : List UInt8) (operation : Operation) : Operation :=
  { operation with storage := operation.storage.write data }

/-! ## The books -/

/-- Where the owner stands in a loop that the kernel can run beside: at the system call of
`flushOnce`, with `left` of the `submitted` entries still to be booked, or with `left` completions
still to be read and `taken` of them read; `all` tells `flushAllOrThrow` from `flush`. -/
inductive Activity where
  | idle
  | calling (all : Bool)
  | returned (all : Bool) (left submitted : Nat)
  | reading (left taken : Nat)

structure Books where
  slots : List Slot
  pendingSubmissions : List PendingSubmission := []
  readyNotices : List Notice := []
  phase : Phase := .running
  sq : SharedRing Sqe
  cq : SharedRing Cqe
  inflight : List Sqe := []
  activity : Activity := .idle
  activeOperations : Nat := 0
  pendingCancelCompletions : Nat := 0
  ownedBytes : Nat := 0
  staleCqes : Nat := 0
  -- history
  accepted : List Operation := []
  published : List Notice := []
  drained : List Cqe := []
  taken : List Notice := []
  strayWrite : Bool := false

def Books.quiescent (b : Books) : Bool :=
  b.activeOperations == 0 && b.pendingSubmissions.isEmpty && b.pendingCancelCompletions == 0

def currentSlot (slots : List Slot) (identity : OperationIdentity) : Option Slot :=
  if !identity.valid then none
  else match slots[identity.slot.toNat]? with
    | none => none
    | some slot =>
      if !slot.active || slot.generation != identity.generation then none else some slot

def findFreeSlot (slots : List Slot) : Option Nat :=
  slots.findIdx? (fun slot => !slot.active && !slot.noticePending)

def resetSlot (slot : Slot) : Slot :=
  { slot with
    active := false, noticePending := false, submitted := false, cancelQueued := false
    socket := kInvalidSocket, storage := { slot.storage with bytes := [] }, lease := none
    reservedBytes := 0 }

/-! ## Accepting an operation -/

structure InetAddress where
  family : Nat
  sockaddr : List UInt8

def AF_INET : Nat := 2
def AF_INET6 : Nat := 10

/-- The arguments of `enqueue`. -/
structure Request where
  kind : OperationKind
  socket : Int
  sendPayload : List UInt8 := []
  bytes : Nat := 0
  peer : Option InetAddress := none
  lease : Option Nat := none

/-- What the allocator answers: an address, and the capacity beyond the size. -/
structure Allocation where
  address : Nat := 0
  spare : Nat := 0

def Request.invalid (r : Request) : Bool :=
  r.socket == kInvalidSocket ||
    ((r.kind == .receive || r.kind == .send) && r.bytes == 0) ||
    (r.kind == .connect && match r.peer with
      | none => true
      | some peer => peer.family != AF_INET && peer.family != AF_INET6)

def Request.storage (r : Request) (a : Allocation) : Storage :=
  if r.bytes = 0 then {}
  else
    let zeroed : Storage := { block := some a.address, bytes := List.replicate r.bytes 0 }
    if r.kind = .send then zeroed.write r.sendPayload else zeroed

def Request.capacity (r : Request) (a : Allocation) : Nat :=
  if r.bytes = 0 then 0 else r.bytes + a.spare

def nextGeneration (generation : BitVec 32) : BitVec 32 :=
  let next := if generation = kMaximumGeneration then 1 else generation + 1
  if next = 0 then 1 else next

def Slot.start (slot : Slot) (r : Request) (a : Allocation) (token : Nat) : Slot :=
  { generation := nextGeneration slot.generation
    active := true, noticePending := false, submitted := false, cancelQueued := false
    kind := r.kind
    socket := r.socket
    storage := r.storage a
    lease := r.lease
    peer := if r.kind = .connect then (r.peer.map InetAddress.sockaddr).getD [] else []
    peerLength := if r.kind = .connect then ((r.peer.map InetAddress.sockaddr).getD []).length
      else sockaddrStorageSize
    reservedBytes := r.capacity a
    token := token }

def slotIdentity (index : Nat) (slot : Slot) : OperationIdentity :=
  { slot := BitVec.ofNat 32 index, generation := slot.generation }

def Slot.sqe (slot : Slot) (index : Nat) : Sqe :=
  let sqe : Sqe :=
    { fd := slot.socket, userData := encodeIdentity (slotIdentity index slot) false
      token := slot.token }
  match slot.kind with
  | .accept => { sqe with opcode := .accept, addr := .peer index }
  | .connect => { sqe with opcode := .connect, addr := .peer index, off := slot.peerLength }
  | .receive =>
    { sqe with opcode := .recv, addr := .block slot.storage.block
               len := slot.storage.bytes.length % 2 ^ 32 }
  | .send =>
    { sqe with opcode := .send, addr := .block slot.storage.block
               len := slot.storage.bytes.length % 2 ^ 32 }

def Slot.operation (slot : Slot) (index : Nat) : Operation :=
  { identity := slotIdentity index slot, kind := slot.kind, storage := slot.storage
    lease := slot.lease, reservedBytes := slot.reservedBytes }

/-- The slot at `index` takes the operation and its request is published as the last entry of
the submission ring `sq`. -/
def Books.accept (b : Books) (index : Nat) (slot : Slot) (sq : SharedRing Sqe) : Books :=
  { b with
    slots := b.slots.set index slot
    sq := sq
    pendingSubmissions := b.pendingSubmissions ++
      [{ userData := (slot.sqe index).userData, cancel := false }]
    ownedBytes := b.ownedBytes + slot.reservedBytes
    activeOperations := b.activeOperations + 1
    accepted := b.accepted ++ [slot.operation index] }

/-! ## Cancel requests -/

def cancelSqe (identity : OperationIdentity) (slot : Slot) : Sqe :=
  { opcode := .asyncCancel, addr := .request (encodeIdentity identity false)
    userData := encodeIdentity identity true, token := slot.token }

def Books.requestCancel (b : Books) (identity : OperationIdentity) (slot : Slot)
    (sq : SharedRing Sqe) : Books :=
  { b with
    sq := sq
    pendingSubmissions := b.pendingSubmissions ++
      [{ userData := encodeIdentity identity true, cancel := true }]
    slots := b.slots.set identity.slot.toNat { slot with cancelQueued := true } }

/-! ## Booking what the kernel has consumed -/

def markSubmitted (slots : List Slot) (identity : OperationIdentity) : List Slot :=
  match currentSlot slots identity with
  | none => slots
  | some slot => slots.set identity.slot.toNat { slot with submitted := true }

/-- One round of the loop after `io_uring_enter`. -/
def Books.bookOne (b : Books) : Books :=
  match b.pendingSubmissions with
  | [] => b
  | pending :: rest =>
    if pending.cancel then
      { b with pendingSubmissions := rest
               pendingCancelCompletions := b.pendingCancelCompletions + 1 }
    else
      { b with pendingSubmissions := rest
               slots := markSubmitted b.slots (decodeIdentity pending.userData) }

/-! ## Completions -/

def ECANCELED : Int := 125
def EINTR : Int := 4
def EAGAIN : Int := 11

def completionStatus (res : Int) : CompletionStatus :=
  if res < 0 then (if -res = ECANCELED then .cancelled else .failed) else .succeeded

def Slot.notice (slot : Slot) (identity : OperationIdentity) (res : Int) : Notice :=
  let transferred := if res < 0 ∨ slot.kind = .accept then 0 else res.toNat
  { identity := identity
    kind := slot.kind
    status := completionStatus res
    bytesTransferred := transferred
    nativeError := if res < 0 then -res else 0
    acceptedSocket := if 0 ≤ res ∧ slot.kind = .accept then res else kInvalidSocket
    payload :=
      if 0 ≤ res ∧ slot.kind = .receive then
        { slot.storage with
          bytes := slot.storage.bytes.take (min transferred slot.storage.bytes.length) }
      else slot.storage
    lease := slot.lease
    reservedBytes := slot.reservedBytes
    token := slot.token }

/-- The slot after its storage and lease are moved into the notice. -/
def Slot.finish (slot : Slot) : Slot :=
  { slot with
    active := false, noticePending := true, submitted := false, cancelQueued := false
    socket := kInvalidSocket, storage := {}, lease := none, reservedBytes := 0 }

def Books.publishTerminal (b : Books) (identity : OperationIdentity) (slot : Slot) (res : Int) :
    Books :=
  { b with
    readyNotices := b.readyNotices ++ [slot.notice identity res]
    published := b.published ++ [slot.notice identity res]
    slots := b.slots.set identity.slot.toNat slot.finish
    activeOperations := b.activeOperations - 1 }

/-- What a completion does to the books. -/
def Books.complete (b : Books) (cqe : Cqe) : Books :=
  if isCancelCqe cqe.userData then
    if b.pendingCancelCompletions ≠ 0 then
      { b with pendingCancelCompletions := b.pendingCancelCompletions - 1 }
    else { b with staleCqes := b.staleCqes + 1 }
  else
    let b := { b with drained := b.drained ++ [cqe] }
    match currentSlot b.slots (decodeIdentity cqe.userData) with
    | none => { b with staleCqes := b.staleCqes + 1 }
    | some slot => b.publishTerminal (decodeIdentity cqe.userData) slot cqe.res

/-! ## The kernel -/

/-- `io_uring_enter` consumes the first `n` entries. -/
def Books.consume (b : Books) (n : Nat) : Books :=
  { b with sq := b.sq.advance n, inflight := b.inflight ++ b.sq.contents.take n }

def Books.post (b : Books) (index : Nat) (res : Int) : Option Books := do
  let sqe ← b.inflight[index]?
  let cq ← b.cq.publish { userData := sqe.userData, res := res, token := sqe.token }
  some { b with inflight := b.inflight.eraseIdx index, cq := cq }

def Slot.holds (slot : Slot) (block : Option Nat) : Bool :=
  slot.active && slot.storage.block == block

/-- The kernel writes received bytes to the address of a request it still works on. A write to
a block that no active slot holds is noted. -/
def Books.write (b : Books) (index : Nat) (data : List UInt8) : Option Books :=
  match b.inflight[index]? with
  | some { opcode := .recv, addr := .block block, len := len, token := token, .. } =>
    if data.length ≤ len then
      some { b with
        slots := b.slots.map fun slot =>
          if slot.holds block then { slot with storage := slot.storage.write data } else slot
        accepted := b.accepted.modify token (Operation.write data)
        strayWrite := b.strayWrite || !b.slots.any (·.holds block) }
    else none
  | _ => none

/-! ## Calls -/

structure Metrics where
  operationsAccepted : Nat := 0
  sqFullRejections : Nat := 0
  operationLimitRejections : Nat := 0
  payloadRejections : Nat := 0
  byteLimitRejections : Nat := 0
  cancelRequests : Nat := 0
  cancelCqes : Nat := 0
  terminalNotices : Nat := 0
  cancelledOperations : Nat := 0
  shutdownTimeouts : Nat := 0
  maxActiveOperations : Nat := 0
  maxReadyNotices : Nat := 0
  maxOwnedBytes : Nat := 0

structure FlushOutcome where
  submitted : Nat := 0
  pending : Nat := 0
  nativeError : Int := 0
deriving DecidableEq

structure WaitProgress where
  completionQueueEntries : Nat := 0
  terminalNotices : Nat := 0
  internalCancelCqes : Nat := 0
  staleCqes : Nat := 0
  budgetExhausted : Bool := false
  timedOut : Bool := false
deriving DecidableEq

inductive Exception where
  | system (operation : String) (error : Int)
  | runtime (what : String)
  | logic (what : String)
deriving DecidableEq

/-- What the last call returned or threw. -/
inductive Result where
  | nothing
  | submission (result : SubmissionResult) (identity : OperationIdentity)
  | flushed (outcome : FlushOutcome)
  | cancel (result : CancelResult)
  | waited (progress : WaitProgress)
  | notice (notice : Option Notice)
  | shutdown (result : ShutdownResult)
  | threw (exception : Exception)
deriving DecidableEq

/-- What is left of the call on the owner's thread. -/
inductive Frame where
  | flush
  | flushAllOrThrow
  | drainCompletionQueue
  | pollIfIdle (timeout : Int)
  | polling (timeout : Int)
  | driveQuiesce
  | cancelFrom (index : Nat)
  | cancelAgain (index : Nat) (identity : OperationIdentity)
  | returnProgress
  | setDeadline (timeout : Int)
  | untilQuiescent (deadline : Int)
  | checkDeadline (deadline : Int)

structure State where
  books : Books
  stack : List Frame := []
  progress : WaitProgress := {}
  result : Result := .nothing
  metrics : Metrics := {}

def State.throw (s : State) (e : Exception) : State :=
  { s with books := { s.books with activity := .idle }, stack := [], result := .threw e }

def State.reject (s : State) (result : SubmissionResult) (metrics : Metrics) : State :=
  { s with result := .submission result {}, metrics := metrics }

/-- `enqueue`, once the storage is there. -/
def State.enqueueStored (o : Options) (s : State) (r : Request) (a : Allocation) : State :=
  let b := s.books
  if b.ownedBytes > o.maxOwnedBytes || r.capacity a > o.maxOwnedBytes - b.ownedBytes then
    s.reject .byteLimit
      { s.metrics with byteLimitRejections := s.metrics.byteLimitRejections + 1 }
  else match findFreeSlot b.slots with
    | none =>
      s.reject .operationLimit
        { s.metrics with operationLimitRejections := s.metrics.operationLimitRejections + 1 }
    | some index =>
      let slot := (b.slots.getD index {}).start r a b.accepted.length
      match b.sq.publish (slot.sqe index) with
      | none =>
        { s.reject .submissionQueueFull
            { s.metrics with sqFullRejections := s.metrics.sqFullRejections + 1 } with
          books := { b with slots := b.slots.set index (resetSlot slot) } }
      | some sq =>
        let b' := b.accept index slot sq
        { s with
          books := b'
          result := .submission .accepted (slotIdentity index slot)
          metrics := { s.metrics with
            maxActiveOperations := max s.metrics.maxActiveOperations b'.activeOperations
            maxOwnedBytes := max s.metrics.maxOwnedBytes b'.ownedBytes
            operationsAccepted := s.metrics.operationsAccepted + 1 } }

def State.enqueue (o : Options) (s : State) (r : Request) (a : Allocation) : State :=
  let b := s.books
  if b.phase = .quiescing then s.reject .rejectedQuiescing s.metrics
  else if b.phase = .shutdown then s.reject .rejectedShutdown s.metrics
  else if r.invalid then s.reject .rejectedInvalid s.metrics
  else if r.bytes > o.maxBytesPerOperation then
    s.reject .payloadTooLarge
      { s.metrics with payloadRejections := s.metrics.payloadRejections + 1 }
  else if b.activeOperations + b.readyNotices.length ≥ o.maxOperations then
    s.reject .operationLimit
      { s.metrics with operationLimitRejections := s.metrics.operationLimitRejections + 1 }
  else if !b.sq.hasRoom then
    s.reject .submissionQueueFull
      { s.metrics with sqFullRejections := s.metrics.sqFullRejections + 1 }
  else s.enqueueStored o r a

def State.cancel (s : State) (identity : OperationIdentity) : State × CancelResult :=
  let b := s.books
  if b.phase = .shutdown then (s, .rejectedShutdown)
  else match currentSlot b.slots identity with
    | none => (s, .rejectedInvalid)
    | some slot =>
      if !slot.submitted then (s, .rejectedNotSubmitted)
      else if slot.cancelQueued then (s, .alreadyRequested)
      else match b.sq.publish (cancelSqe identity slot) with
        | none =>
          ({ s with metrics :=
              { s.metrics with sqFullRejections := s.metrics.sqFullRejections + 1 } },
            .submissionQueueFull)
        | some sq =>
          ({ s with
              books := b.requestCancel identity slot sq
              metrics := { s.metrics with cancelRequests := s.metrics.cancelRequests + 1 } },
            .accepted)

def State.takeNextNotice (s : State) : State :=
  let b := s.books
  match b.readyNotices with
  | [] => { s with result := .notice none }
  | notice :: rest =>
    let s := { s with books := { b with readyNotices := rest } }
    let identity := notice.identity
    match b.slots[identity.slot.toNat]? with
    | none => s.throw (.logic "io_uring terminal notice lost its reserved operation slot")
    | some slot =>
      if !identity.valid || slot.generation != identity.generation || !slot.noticePending then
        s.throw (.logic "io_uring terminal notice lost its reserved operation slot")
      else
        let slots := b.slots.set identity.slot.toNat { slot with noticePending := false }
        let s := { s with books := { s.books with slots := slots } }
        if notice.reservedBytes > b.ownedBytes then
          s.throw (.logic "io_uring owned-byte accounting underflow")
        else
          let returned := { notice with reservedBytes := 0 }
          { s with
            books := { s.books with
              ownedBytes := b.ownedBytes - notice.reservedBytes
              taken := b.taken ++ [returned] }
            result := .notice (some returned) }

/-- The frames of `wait`. -/
def waitFrames (timeout : Int) : List Frame :=
  [.flushAllOrThrow, .drainCompletionQueue, .pollIfIdle timeout, .driveQuiesce, .returnProgress]

def boundedPollTimeout (timeout : Int) : Int :=
  if timeout ≤ 0 then 0 else if timeout ≥ 2 ^ 31 - 1 then 2 ^ 31 - 1 else timeout

inductive Call where
  | enqueueAccept (listenSocket : Int) (lease : Option Nat) (a : Allocation)
  | enqueueConnect (socket : Int) (peer : InetAddress) (lease : Option Nat) (a : Allocation)
  | enqueueRecv (socket : Int) (maximumBytes : Nat) (lease : Option Nat) (a : Allocation)
  | enqueueSend (socket : Int) (payload : List UInt8) (lease : Option Nat) (a : Allocation)
  | flush
  | cancel (identity : OperationIdentity)
  | wait (timeout : Int)
  | takeNextNotice
  | beginQuiesce
  | shutdown (timeout : Int)

/-- The allocator does not hand out a block that the engine still owns. -/
def Books.owns (b : Books) (address : Nat) : Bool :=
  b.slots.any (·.holds (some address)) || b.readyNotices.any (·.payload.block == some address)

def State.enqueueFresh (o : Options) (s : State) (r : Request) (a : Allocation) : Option State :=
  if s.books.owns a.address then none else some (s.enqueue o r a)

def State.call (o : Options) (s : State) : Call → Option State
  | .enqueueAccept listenSocket lease a =>
    s.enqueueFresh o { kind := .accept, socket := listenSocket, lease := lease } a
  | .enqueueConnect socket peer lease a =>
    s.enqueueFresh o { kind := .connect, socket := socket, peer := some peer, lease := lease } a
  | .enqueueRecv socket maximumBytes lease a =>
    s.enqueueFresh o { kind := .receive, socket := socket, bytes := maximumBytes, lease := lease } a
  | .enqueueSend socket payload lease a =>
    s.enqueueFresh o
      { kind := .send, socket := socket, sendPayload := payload, bytes := payload.length
        lease := lease } a
  | .flush => some { s with stack := [.flush] }
  | .cancel identity =>
    let (s, result) := s.cancel identity
    some { s with result := .cancel result }
  | .wait timeout =>
    if s.books.phase = .shutdown then some { s with result := .waited {} }
    else some { s with stack := waitFrames timeout, progress := {} }
  | .takeNextNotice => some s.takeNextNotice
  | .beginQuiesce =>
    if s.books.phase = .shutdown then some s
    else some { s with books := { s.books with phase := .quiescing }, stack := [.driveQuiesce] }
  | .shutdown timeout =>
    if s.books.phase = .shutdown then some { s with result := .shutdown .drained }
    else some { s with books := { s.books with phase := .quiescing }
                       stack := [.driveQuiesce, .setDeadline timeout] }

/-! ## The machine -/

/-- What `io_uring_enter` answers. -/
inductive EnterAnswer where
  | consumed (n : Nat)
  | failed (error : Int)

inductive PollAnswer where
  | failed (error : Int)
  | timedOut
  | ready

inductive Label where
  | call (call : Call)
  | run
  | enter (answer : EnterAnswer)
  | poll (answer : PollAnswer)
  | clock (now : Int)
  | write (index : Nat) (data : List UInt8)
  | post (index : Nat) (res : Int)

def State.setActivity (s : State) (activity : Activity) : State :=
  { s with books := { s.books with activity := activity } }

/-- `flushOnce` returns to `flush` or to the loop of `flushAllOrThrow`, whose frame is still on
the stack. -/
def State.flushed (s : State) (all : Bool) (outcome : FlushOutcome) : State :=
  let s := s.setActivity .idle
  if !all then { s with result := .flushed outcome }
  else if outcome.nativeError ≠ 0 then s.throw (.system "io_uring_enter" outcome.nativeError)
  else if outcome.submitted = 0 then s.throw (.system "io_uring_enter made no progress" EAGAIN)
  else s

/-- One completion of the loop of `drainCompletionQueue`. -/
def State.drainOne (s : State) (cqe : Cqe) : State :=
  let cancel := isCancelCqe cqe.userData
  let found := (currentSlot s.books.slots (decodeIdentity cqe.userData)).isSome
  let stale := if cancel then s.books.pendingCancelCompletions == 0 else !found
  let terminal := !cancel && found
  let cancelled := terminal && completionStatus cqe.res == .cancelled
  let b := s.books.complete cqe
  { s with
    books := b
    progress := { s.progress with
      completionQueueEntries := s.progress.completionQueueEntries + 1
      terminalNotices := s.progress.terminalNotices + terminal.toNat
      internalCancelCqes := s.progress.internalCancelCqes + cancel.toNat
      staleCqes := s.progress.staleCqes + stale.toNat }
    metrics := { s.metrics with
      cancelCqes := s.metrics.cancelCqes + cancel.toNat
      terminalNotices := s.metrics.terminalNotices + terminal.toNat
      cancelledOperations := s.metrics.cancelledOperations + cancelled.toNat
      maxReadyNotices := max s.metrics.maxReadyNotices b.readyNotices.length } }

/-- A slot that `driveQuiesce` still has to cancel. -/
def Slot.cancellable (slot : Slot) : Bool := slot.active && slot.submitted && !slot.cancelQueued

/-- The end of a round of the loop in `driveQuiesce`, after the last attempt to cancel. -/
def State.cancelled (s : State) (result : CancelResult) (next : List Frame) : State :=
  if result = .accepted ∨ result = .alreadyRequested then { s with stack := next }
  else s.throw (.runtime "failed to enqueue io_uring final-drain cancellation")

/-- One step of the frame on top of the stack. -/
def State.runFrame (o : Options) (s : State) (rest : List Frame) : Frame → Option State
  | .flush =>
    if s.books.pendingSubmissions.isEmpty then
      some { s with stack := rest, result := .flushed {} }
    else some { s.setActivity (.calling false) with stack := rest }
  | .flushAllOrThrow =>
    if s.books.pendingSubmissions.isEmpty then some { s with stack := rest }
    else some (s.setActivity (.calling true))
  | .drainCompletionQueue =>
    some { s.setActivity (.reading (min s.books.cq.length o.maxCompletionsPerWait) 0) with
      stack := rest }
  | .pollIfIdle timeout =>
    if s.progress.completionQueueEntries = 0 ∧ 0 < timeout then
      some { s with stack := .polling (boundedPollTimeout timeout) :: rest }
    else some { s with stack := rest }
  | .driveQuiesce =>
    if s.books.phase = .quiescing then
      some { s with stack := .flushAllOrThrow :: .cancelFrom 0 :: .flushAllOrThrow :: rest }
    else some { s with stack := rest }
  | .cancelFrom index =>
    match s.books.slots[index]? with
    | none => some { s with stack := rest }
    | some slot =>
      if !slot.cancellable then some { s with stack := .cancelFrom (index + 1) :: rest }
      else
        let identity := slotIdentity index slot
        let (s, result) := s.cancel identity
        if result = .submissionQueueFull then
          some { s with stack := .flushAllOrThrow :: .cancelAgain index identity :: rest }
        else some (s.cancelled result (.cancelFrom (index + 1) :: rest))
  | .cancelAgain index identity =>
    let (s, result) := s.cancel identity
    some (s.cancelled result (.cancelFrom (index + 1) :: rest))
  | .returnProgress => some { s with stack := rest, result := .waited s.progress }
  | .untilQuiescent deadline =>
    if s.books.quiescent then
      some { s with books := { s.books with phase := .shutdown }, stack := rest
                    result := .shutdown .drained }
    else some { s with stack := .driveQuiesce :: .checkDeadline deadline :: rest }
  | .polling _ | .setDeadline _ | .checkDeadline _ => none

def State.run (o : Options) (s : State) : Option State :=
  match s.books.activity with
  | .calling _ => none
  | .returned all 0 submitted =>
    some (s.flushed all { submitted := submitted, pending := s.books.pendingSubmissions.length })
  | .returned all (left + 1) submitted =>
    some { s with books := { s.books.bookOne with activity := .returned all left submitted } }
  | .reading 0 taken =>
    let cq := s.books.cq.advance taken
    some { s with books := { s.books with activity := .idle, cq := cq }
                  progress := { s.progress with budgetExhausted := cq.length != 0 } }
  | .reading (left + 1) taken =>
    match s.books.cq.peek taken with
    | none => none
    | some cqe => some ((s.drainOne cqe).setActivity (.reading left (taken + 1)))
  | .idle =>
    match s.stack with
    | [] => none
    | frame :: rest => s.runFrame o rest frame

def State.enter (s : State) (answer : EnterAnswer) : Option State :=
  match s.books.activity, answer with
  | .calling all, .consumed n =>
    if n ≤ min s.books.pendingSubmissions.length s.books.sq.length then
      some ({ s with books := s.books.consume n }.setActivity (.returned all n n))
    else none
  | .calling all, .failed error =>
    if error ≤ 0 then none
    else if error = EINTR then some s
    else some (s.flushed all
      { pending := s.books.pendingSubmissions.length, nativeError := error })
  | _, _ => none

def State.poll (s : State) (answer : PollAnswer) : Option State :=
  match s.books.activity, s.stack, answer with
  | .idle, .polling _ :: rest, .failed error =>
    if error = EINTR then some s
    else some ({ s with stack := rest }.throw (.system "poll(io_uring)" error))
  | .idle, .polling _ :: rest, .timedOut =>
    some { s with stack := rest, progress := { s.progress with timedOut := true } }
  | .idle, .polling _ :: rest, .ready =>
    some { s with stack := .drainCompletionQueue :: rest
                  progress := { s.progress with timedOut := false } }
  | _, _, _ => none

/-- The clock counts nanoseconds, timeouts are milliseconds. -/
def State.clock (s : State) (now : Int) : Option State :=
  match s.books.activity, s.stack with
  | .idle, .setDeadline timeout :: rest =>
    some { s with stack := .untilQuiescent (now + timeout * 1000000) :: rest }
  | .idle, .checkDeadline deadline :: rest =>
    if now ≥ deadline then
      some { s with stack := rest, result := .shutdown .timedOut
                    metrics := { s.metrics with
                      shutdownTimeouts := s.metrics.shutdownTimeouts + 1 } }
    else
      let remaining := (deadline - now) / 1000000
      if s.books.phase = .shutdown then some { s with stack := .untilQuiescent deadline :: rest }
      else
        some { s with stack := waitFrames (min remaining 50) ++ .untilQuiescent deadline :: rest
                      progress := {} }
  | _, _ => none

def step (o : Options) (s : State) : Label → Option State
  | .call call =>
    match s.books.activity, s.stack with
    | .idle, [] => { s with result := .nothing }.call o call
    | _, _ => none
  | .run => s.run o
  | .enter answer => s.enter answer
  | .poll answer => s.poll answer
  | .clock now => s.clock now
  | .write index data => (s.books.write index data).map fun b => { s with books := b }
  | .post index res => (s.books.post index res).map fun b => { s with books := b }

/-- The engine after its construction: both rings are empty, of any size and with their cursors
anywhere. -/
def start (o : Options) (sq : SharedRing Sqe) (cq : SharedRing Cqe) : State :=
  { books := { slots := List.replicate o.maxOperations {}, sq := sq, cq := cq } }

def Initial (o : Options) (s : State) : Prop :=
  o.validated = true ∧ ∃ sq cq, sq.contents = [] ∧ cq.contents = [] ∧ s = start o sq cq

end GameNet.IoUring
